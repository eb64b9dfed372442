/-
What a run reports while it goes on.

An event is something a run has done or has let pass, with what there is to know about
it.  Letting pass is reported louder than doing: an unknown variable and an expression
that does not parse are warnings, since the series they leave undefined shows nothing
on a chart.
-/
import ChartScript.Script.Basic

namespace ChartScript

/-- Something that a run reports. -/
inductive Event where
  | loadedBars (symbol : String) (count : Nat)
  | running (count : Nat)
  | unrecognisedLine (line : Nat) (code : String)
  | ignoredArgument (name : String)
  | declaration (title : Option String)
  | unknownVariable (name : String) (tree : Arithmetic)
  | unparsable (text : String) (error : ParseError)
  | assigned (line : Nat) (target : String) (expression : Expression)
  | plotted (line : Nat) (name : String) (points : Nat)
  | plotSkipped (line : Nat) (series : String) (defined : List String)
  | failed (error : ScriptError)
deriving DecidableEq

namespace Event

/-- How much an event matters. -/
inductive Level where
  | info
  | warn
  | debug
deriving DecidableEq, Repr

/-- The text of a level. -/
def Level.text : Level → String
  | .info => "INFO"
  | .warn => "WARN"
  | .debug => "DEBUG"

/-- How much an event matters. -/
def level : Event → Level
  | .loadedBars .. | .running .. => .info
  | .unknownVariable .. | .unparsable .. => .warn
  | _ => .debug

/-- The wording of an event. -/
def message : Event → String
  | .loadedBars .. => "loaded bars"
  | .running .. => "running script"
  | .unrecognisedLine .. => "ignoring unrecognised line"
  | .ignoredArgument .. => "ignoring plot argument"
  | .declaration .. => "declaration"
  | .unknownVariable .. => "unknown variable, series is undefined"
  | .unparsable .. => "expression does not parse, series is undefined"
  | .assigned .. => "assigned"
  | .plotted .. => "plotted"
  | .plotSkipped .. => "plot target not defined, skipping"
  | .failed .. => "script run failed"

/-- A list of names, each between double quotes. -/
def nameList (names : List String) : String :=
  "[" ++ String.intercalate ", " (names.map fun name => "\x22" ++ name ++ "\x22") ++ "]"

/-- What there is to know about an event, by name. -/
def fields : Event → List (String × String)
  | .loadedBars symbol count => [("symbol", symbol), ("bars", toString count)]
  | .running count => [("bars", toString count)]
  | .unrecognisedLine line code => [("line", toString line), ("text", code)]
  | .ignoredArgument name => [("argument", name)]
  | .declaration title => [("title", title.getD "")]
  | .unknownVariable name tree => [("variable", name), ("expression", tree.text)]
  | .unparsable text error => [("expression", text), ("error", error.display)]
  | .assigned line target expression =>
      [("line", toString line), ("target", target), ("expression", expression.text)]
  | .plotted line name points =>
      [("line", toString line), ("name", name), ("points", toString points)]
  | .plotSkipped line series defined =>
      [("line", toString line), ("series", series), ("defined", nameList defined)]
  | .failed error => [("error", error.message)]

end Event

end ChartScript
