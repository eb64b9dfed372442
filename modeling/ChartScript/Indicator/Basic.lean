/-
Indicators: the built-in calls a script can assign.

Four of them average or measure one source series over a length; the MACD line has
two lengths that matter and one that is only carried along; the average true range
and the stochastic oscillator read the series `high`, `low` and `close` as they stand
at that point of the run; the Bollinger basis is a simple average whose multiplier is
only carried along.
-/
import ChartScript.Series.Range
import ChartScript.Series.Strength
import ChartScript.Decimal.Layout
import ChartScript.SymbolTable
import ChartScript.Text.Digits

namespace ChartScript

/-- An indicator with its parameters. -/
inductive Indicator where
  | sma (source : String) (length : Nat)
  | ema (source : String) (length : Nat)
  | wma (source : String) (length : Nat)
  | rsi (source : String) (length : Nat)
  | macd (source : String) (fast slow signal : Nat)
  | atr (length : Nat)
  | stoch (kLength dLength : Nat)
  | bollinger (source : String) (length : Nat) (multiplier : Float)
deriving DecidableEq

namespace Indicator

/-- The indicators without their parameters. -/
inductive Kind where
  | rsi
  | sma
  | ema
  | wma
  | macd
  | atr
  | stoch
  | bollinger
deriving DecidableEq, Repr

namespace Kind

/-- All of them. -/
def all : List Kind := [.rsi, .sma, .ema, .wma, .macd, .atr, .stoch, .bollinger]

/-- The name that calls use behind the namespace. -/
def name : Kind → String
  | .rsi => "rsi"
  | .sma => "sma"
  | .ema => "ema"
  | .wma => "wma"
  | .macd => "macd"
  | .atr => "atr"
  | .stoch => "stoch"
  | .bollinger => "bb"

/-- The name that listings and messages use. -/
def title : Kind → String
  | .rsi => "RSI"
  | .sma => "SMA"
  | .ema => "EMA"
  | .wma => "WMA"
  | .macd => "MACD"
  | .atr => "ATR"
  | .stoch => "STOCH"
  | .bollinger => "BB"

/-- The indicator of a reserved name. -/
def ofName? (name : String) : Option Kind :=
  all.find? fun kind => kind.name == name

end Kind

/-- The namespace of the reserved names. -/
def namespaceMark : String := "ta."

/-- Which indicator it is. -/
def kind : Indicator → Kind
  | .sma .. => .sma
  | .ema .. => .ema
  | .wma .. => .wma
  | .rsi .. => .rsi
  | .macd .. => .macd
  | .atr .. => .atr
  | .stoch .. => .stoch
  | .bollinger .. => .bollinger

/-- The parameters as they are written, the ones left out included. -/
def arguments : Indicator → List String
  | .sma source length => [source, toString length]
  | .ema source length => [source, toString length]
  | .wma source length => [source, toString length]
  | .rsi source length => [source, toString length]
  | .macd source fast slow signal => [source, toString fast, toString slow, toString signal]
  | .atr length => [toString length]
  | .stoch kLength dLength => [toString kLength, toString dLength]
  | .bollinger source length multiplier => [source, toString length, plainText multiplier]

/-- The text of an indicator, with every parameter. -/
def text (i : Indicator) : String :=
  i.kind.title ++ "(" ++ String.intercalate ", " i.arguments ++ ")"

/-- The names of the series an indicator reads, in the order it looks them up. -/
def sources : Indicator → List String
  | .sma source _ | .ema source _ | .wma source _ | .rsi source _ => [source]
  | .macd source _ _ _ => [source]
  | .atr _ | .stoch _ _ => ["high", "low", "close"]
  | .bollinger source _ _ => [source]

/-- The series bound to a name, or the name if it is not bound. -/
def source (table : SymbolTable) (name : String) : Except String Series :=
  match table.get? name with
  | some series => .ok series
  | none => .error name

/-- The series of an indicator over the names bound so far, or the first of its
sources that is not bound. -/
def compute (table : SymbolTable) : Indicator → Except String Series
  | .sma name length => do return Series.sma (← source table name) length
  | .ema name length => do return Series.ema (← source table name) length
  | .wma name length => do return Series.wma (← source table name) length
  | .rsi name length => do return Series.rsi (← source table name) length
  | .macd name fast slow _ => do return Series.macdLine (← source table name) fast slow
  | .atr length => do
      let high ← source table "high"
      let low ← source table "low"
      let close ← source table "close"
      return Series.atr high low close length
  | .stoch kLength dLength => do
      let high ← source table "high"
      let low ← source table "low"
      let close ← source table "close"
      return Series.stochastic high low close kLength dLength
  | .bollinger name length _ => do return Series.sma (← source table name) length

end Indicator

end ChartScript
