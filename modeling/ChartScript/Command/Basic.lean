/-
Commands and what they report.

A command runs a script over the bars of a symbol, checks a script without running it,
or lists the symbols that there is market data for.  Whatever happens, it ends with an
exit status, with text for the standard output and with what the command itself says on
the standard error stream: errors, warnings and counts.  Only results go to the standard
output.

The log goes to the standard error stream as well, from warnings upward unless another
level is asked for.  It is no part of a report: what a run logs are the events of its trace.
-/
import ChartScript.Document
import ChartScript.Run.Pipeline
import ChartScript.Settings

namespace ChartScript

open Text

/-- What a command is asked to do. -/
inductive Command where
  | run (script symbol : String) (config : Option String) (given : Settings.Overrides)
  | check (script : String)
  | listSymbols (config : Option String) (given : Settings.Overrides)
deriving DecidableEq, Repr

/-- What a command comes to. -/
structure Report where
  exit : Nat
  stdout : String
  /-- What is said on the standard error stream, without the lines of the log. -/
  stderr : String
deriving DecidableEq, Repr

namespace Report

/-- A command that has done what it was asked to. -/
def success (stdout stderr : String) : Report := ⟨0, stdout, stderr⟩

/-- The line that reports an error. -/
def errorLine (message : String) : String :=
  "error: " ++ message ++ "\n"

/-- A command that has failed, without results. -/
def failure (failure : Failure) : Report :=
  ⟨failure.exitStatus, "", errorLine failure.message⟩

/-- Something said in front of what is said on the standard error stream. -/
def noting (report : Report) (text : String) : Report :=
  { report with stderr := text ++ report.stderr }

end Report

namespace Command

variable {m : Type → Type} [Monad m]

/-- The settings of a command. -/
def settings (files : FileSystem m) (config : Option String) (given : Settings.Overrides) :
    m (Except Failure Settings) := do
  match config with
  | none => return Settings.resolve none given
  | some path =>
      match ← Settings.loadIni files path with
      | .error failure => return .error failure
      | .ok ini => return Settings.resolve (some ini) given

/-- What a script that cannot be read comes to. -/
def unreadable (path : String) (fault : ReadFault) : Report :=
  let failure := Failure.file fault.message
  ⟨failure.exitStatus, "", Report.errorLine (s!"failed to read {path}: " ++ failure.message)⟩

/-! ### Running -/

/-- The exit status of a script that has been run and has failed. -/
def scriptFailure : Nat := 4

/-- The report on an outcome: its document, and the error of a failed run. -/
def reportOutcome (outcome : Outcome) (pretty : Bool) : Report :=
  match outcome.document? pretty with
  | .error reason => .failure (.document reason)
  | .ok document =>
      match outcome with
      | .success _ => .success (document ++ "\n") ""
      | .failure message => ⟨scriptFailure, document ++ "\n", Report.errorLine message⟩

/-- Run a script over the bars of a symbol. -/
def runScript (files : FileSystem m) (script symbol : String) (config : Option String)
    (given : Settings.Overrides) : m Report := do
  match ← settings files config given with
  | .error failure => return .failure failure
  | .ok settings =>
      match ← files.readText script with
      | .error fault => return unreadable script fault
      | .ok text =>
          match Run.pipeline (← settings.source.fetch files symbol) symbol text.toList with
          | .error failure => return .failure failure
          | .ok outcome => return reportOutcome outcome settings.pretty

/-! ### Checking -/

/-- A number in a column four characters wide. -/
def column (n : Nat) : String :=
  let ds := digits n
  String.ofList (List.replicate (4 - ds.length) ' ' ++ ds)

/-- The line of a listing that shows a statement. -/
def listing (statement : Statement) : String :=
  column statement.line ++ ": " ++ statement.action.text ++ "\n"

/-- The warning about a statement with a right-hand side that does not parse. -/
def warning (statement : Statement) : String :=
  match statement.action with
  | .assign _ (.invalid text error) =>
      s!"warning: line {statement.line}: series is undefined\n" ++ error.context text ++ "\n"
  | _ => ""

/-- The report on a script that has been read. -/
def reportScript (script : Script) : Report :=
  let title :=
    match script.title with
    | some title => s!"Title: {title}\n"
    | none => ""
  .success (title ++ String.join (script.statements.map listing))
    (String.join (script.statements.map warning) ++
      s!"{script.statements.length} statements OK\n")

/-- Check a script. -/
def checkScript (files : FileSystem m) (script : String) : m Report := do
  let report : Report :=
    match ← files.readText script with
    | .error fault => unreadable script fault
    | .ok text =>
        match Script.parse text.toList with
        | .error e => ⟨(Failure.script e).exitStatus, "", Report.errorLine e.report⟩
        | .ok script => reportScript script
  return report.noting s!"Checking script: {script}\n"

/-! ### Listing symbols -/

/-- The report on the symbols of a source. -/
def reportSymbols (source : Source) (symbols : List String) : Report :=
  if symbols.isEmpty then
    .success "" ("No " ++ source.format.extension ++ s!" files found in {source.directory}\n")
  else
    .success (String.join (symbols.map fun symbol => symbol ++ "\n"))
      s!"{symbols.length} symbols found\n"

/-- List the symbols that there is market data for. -/
def list (files : FileSystem m) (config : Option String) (given : Settings.Overrides) :
    m Report := do
  match ← settings files config given with
  | .error failure => return .failure failure
  | .ok settings =>
      match ← settings.source.symbols files with
      | .error failure => return .failure failure
      | .ok symbols => return reportSymbols settings.source symbols

/-- Do what a command is asked to. -/
def execute (files : FileSystem m) : Command → m Report
  | .run script symbol config given => runScript files script symbol config given
  | .check script => checkScript files script
  | .listSymbols config given => list files config given

end Command

end ChartScript
