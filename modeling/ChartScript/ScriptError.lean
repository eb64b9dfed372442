/-
Errors that end a run.

A fault is what is wrong with a line, and a script error is a fault with the number
of its line.  Reading a line can raise every fault but one: that a source series is
not bound shows only when the line is executed.
-/
import ChartScript.Indicator.Decode

namespace ChartScript

/-- What is wrong with a plot statement. -/
inductive PlotFault where
  /-- Its parentheses do not match. -/
  | unclosed (cause : ParseError.Cause)
  /-- Text stands behind it. -/
  | surplusText (found : String)
  /-- It does not say which series to plot. -/
  | missingSeries (code : String)
deriving DecidableEq

/-- The wording of a plot fault. -/
def PlotFault.message : PlotFault → String
  | .unclosed cause => cause.message
  | .surplusText found => s!"unexpected input after plot(...): '{found}'"
  | .missingSeries code => "missing series in \x60" ++ code ++ "\x60"

/-- What is wrong with a line. -/
inductive ScriptFault where
  /-- An indicator call without matching parentheses, or with text behind it. -/
  | malformedCall (call : String) (error : ParseError)
  | invalidArgument (kind : Indicator.Kind) (fault : ArgumentFault)
  /-- A source that no line above has bound. -/
  | undefinedVariable (name : String) (call : Indicator)
  | malformedPlot (fault : PlotFault)
  /-- Something other than a name in front of the equals sign. -/
  | invalidTarget (target : String)
deriving DecidableEq

/-- The wording of a fault. -/
def ScriptFault.message : ScriptFault → String
  | .malformedCall call error =>
      "malformed indicator call \x60" ++ call ++ "\x60: " ++ error.display
  | .invalidArgument kind fault =>
      "invalid argument to " ++ Indicator.namespaceMark ++ kind.name ++ ": " ++ fault.message
  | .undefinedVariable name call => s!"undefined variable '{name}' in " ++ call.text
  | .malformedPlot fault => "malformed plot statement: " ++ fault.message
  | .invalidTarget target => s!"invalid assignment target '{target}'"

/-- A fault and the line it is on, counted from one. -/
structure ScriptError where
  line : Nat
  fault : ScriptFault
deriving DecidableEq

namespace ScriptError

/-- The wording of a fault with its line. -/
def message (e : ScriptError) : String :=
  s!"line {e.line}: " ++ e.fault.message

/-- The wording that a check of a script shows: a malformed call is shown with a
caret below the place of its error. -/
def report (e : ScriptError) : String :=
  match e.fault with
  | .malformedCall call error => s!"line {e.line}:\n" ++ error.context call
  | _ => e.message

end ScriptError

end ChartScript
