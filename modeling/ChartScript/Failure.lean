/-
Failures of a whole command, and its exit status.
-/
import ChartScript.ScriptError

namespace ChartScript

/-- Why a command cannot do what it was asked to. -/
inductive Failure where
  /-- A configuration that cannot be read. -/
  | configParse (path reason : String)
  /-- A setting with a value that it cannot have. -/
  | configInvalid (group key reason : String)
  /-- Market data that cannot be had. -/
  | data (reason : String)
  /-- Market data without a single bar. -/
  | noBars (symbol : String)
  /-- A script that is faulty or fails. -/
  | script (error : ScriptError)
  /-- A document that cannot be written. -/
  | document (reason : String)
  /-- A file that cannot be read. -/
  | file (reason : String)
deriving DecidableEq

namespace Failure

/-- The wording of a failure. -/
def message : Failure → String
  | .configParse path reason => s!"config parse error in {path}: {reason}"
  | .configInvalid group key reason => s!"invalid config value [{group}] {key}: {reason}"
  | .data reason => s!"data error: {reason}"
  | .noBars symbol => s!"no bars for {symbol}"
  | .script error => error.message
  | .document reason => reason
  | .file reason => reason

/-- The exit status of a command that fails. -/
def exitStatus : Failure → Nat
  | .file _ | .document _ => 1
  | .configParse .. | .configInvalid .. => 2
  | .data _ => 3
  | .script _ => 4
  | .noBars _ => 5

end Failure

end ChartScript
