/-
Decoding the arguments of an indicator call.

Arguments are taken from left to right, one for each parameter.  The first that does
not suit its parameter is the one reported; a parameter without a default must be
given; and arguments left over once every parameter has its own are reported last.
-/
import ChartScript.Arguments
import ChartScript.Indicator.Basic

namespace ChartScript

open Text

/-- What is wrong with the arguments of a call. -/
inductive ArgumentFault where
  | missing (parameter : String)
  | notSeries (parameter found : String)
  | notPositive (parameter : String)
  | notInteger (parameter found : String)
  | notNumber (parameter found : String)
  | surplus (found : String)
deriving DecidableEq, Repr

/-- The wording of an argument fault. -/
def ArgumentFault.message : ArgumentFault → String
  | .missing parameter => "missing \x60" ++ parameter ++ "\x60"
  | .notSeries parameter found =>
      "expected series name for \x60" ++ parameter ++ "\x60, found '" ++ found ++ "'"
  | .notPositive parameter => "\x60" ++ parameter ++ "\x60 must be positive"
  | .notInteger parameter found =>
      "expected positive integer for \x60" ++ parameter ++ "\x60, found '" ++ found ++ "'"
  | .notNumber parameter found =>
      "expected number for \x60" ++ parameter ++ "\x60, found '" ++ found ++ "'"
  | .surplus found => s!"unexpected argument '{found}'"

namespace Indicator

/-- The largest length there is. -/
def maxLength : Nat := 0xFFFFFFFFFFFFFFFF

/-- Read a length: digits behind at most one plus sign, no larger than the largest
length. -/
def readLength? (text : String) : Option Nat :=
  let number :=
    match text.toList with
    | '+' :: cs => readNat? cs
    | cs => readNat? cs
  number.filter (· ≤ maxLength)

/-- Take an argument that names a series. -/
def takeSource (parameter : String) :
    List String → Except ArgumentFault (String × List String)
  | [] => .error (.missing parameter)
  | found :: rest =>
      if isIdentifier found.toList then .ok (found, rest)
      else .error (.notSeries parameter found)

/-- Take an argument that is a length; without one the default stands, if there is a
default. -/
def takeLength (parameter : String) (default : Option Nat) :
    List String → Except ArgumentFault (Nat × List String)
  | [] =>
      match default with
      | some length => .ok (length, [])
      | none => .error (.missing parameter)
  | found :: rest =>
      match readLength? found with
      | none => .error (.notInteger parameter found)
      | some 0 => .error (.notPositive parameter)
      | some length => .ok (length, rest)

/-- Take an argument that is a finite number; without one the default stands. -/
def takeNumber (parameter : String) (default : Float) :
    List String → Except ArgumentFault (Float × List String)
  | [] => .ok (default, [])
  | found :: rest =>
      match Decimal.readFloat? found.toList with
      | some value =>
          if value.isFinite then .ok (value, rest) else .error (.notNumber parameter found)
      | none => .error (.notNumber parameter found)

/-- The indicator, if no argument is left over. -/
def complete (i : Indicator) : List String → Except ArgumentFault Indicator
  | [] => .ok i
  | found :: _ => .error (.surplus found)

/-- Decode an indicator that averages or measures one series over a length. -/
def decodeSingle (make : String → Nat → Indicator) (arguments : List String) :
    Except ArgumentFault Indicator := do
  let (source, arguments) ← takeSource "source" arguments
  let (length, arguments) ← takeLength "length" none arguments
  complete (make source length) arguments

/-- Decode the arguments of a call. -/
def decode (kind : Kind) (arguments : List String) : Except ArgumentFault Indicator :=
  match kind with
  | .sma => decodeSingle .sma arguments
  | .ema => decodeSingle .ema arguments
  | .wma => decodeSingle .wma arguments
  | .rsi => decodeSingle .rsi arguments
  | .macd => do
      let (source, arguments) ← takeSource "source" arguments
      let (fast, arguments) ← takeLength "fast" (some 12) arguments
      let (slow, arguments) ← takeLength "slow" (some 26) arguments
      let (signal, arguments) ← takeLength "signal" (some 9) arguments
      complete (.macd source fast slow signal) arguments
  | .atr => do
      let (length, arguments) ← takeLength "length" (some 14) arguments
      complete (.atr length) arguments
  | .stoch => do
      let (kLength, arguments) ← takeLength "k" (some 14) arguments
      let (dLength, arguments) ← takeLength "d" (some 3) arguments
      complete (.stoch kLength dLength) arguments
  | .bollinger => do
      let (source, arguments) ← takeSource "source" arguments
      let (length, arguments) ← takeLength "length" (some 20) arguments
      let (multiplier, arguments) ← takeNumber "mult" (Float.ofNat 2) arguments
      complete (.bollinger source length multiplier) arguments

end Indicator

end ChartScript
