/-
Right-hand sides of assignments.

The right-hand side is an indicator call or arithmetic.  Arithmetic that does not
parse is no error: it is kept with the reason, and its series is undefined at every
bar.
-/
import ChartScript.Arithmetic.Parse
import ChartScript.Indicator.Call

namespace ChartScript

open Text

/-- The right-hand side of an assignment. -/
inductive Expression where
  | indicator (call : Indicator)
  | arithmetic (tree : Arithmetic)
  | invalid (text : String) (error : ParseError)
deriving DecidableEq

namespace Expression

/-- Read a right-hand side.  Only a malformed indicator call is an error. -/
def parse (cs : List Char) : Except ScriptFault Expression :=
  let text := trim cs
  match Indicator.readCall? text with
  | some (.ok call) => .ok (.indicator call)
  | some (.error fault) => .error fault
  | none =>
      match Arithmetic.parse text with
      | .ok tree => .ok (.arithmetic tree)
      | .error e => .ok (.invalid (String.ofList text) e)

/-- The series of a right-hand side over the names bound so far. -/
def evaluate (table : SymbolTable) : Expression → Except ScriptFault Series
  | .indicator call =>
      match call.compute table with
      | .ok series => .ok series
      | .error name => .error (.undefinedVariable name call)
  | .arithmetic tree => .ok (tree.evaluate table)
  | .invalid _ _ => .ok (List.replicate table.barCount Scalar.undefined)

/-- The text of a right-hand side. -/
def text : Expression → String
  | .indicator call => call.text
  | .arithmetic tree => tree.text
  | .invalid text _ => s!"<invalid: {text}>"

end Expression

end ChartScript
