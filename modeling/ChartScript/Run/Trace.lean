/-
Traces: a run together with what it reports.

Each line reports first what reading it passes over and then what executing it does.
A traced run comes to the same as an untraced one; the main statement of this module
says so.
-/
import ChartScript.Run.Basic
import ChartScript.Run.Event

namespace ChartScript

open Text

/-- What reading a line of a given form passes over. -/
def Line.Form.notices (number : Nat) : Line.Form → List Event
  | .plot _ arguments =>
      match Line.plotArguments arguments with
      | .ok sorted => sorted.ignored.map fun name => .ignoredArgument (String.ofList name)
      | .error _ => []
  | .unrecognised code => [.unrecognisedLine number (String.ofList code)]
  | _ => []

namespace Run

/-- What evaluating a right-hand side warns of. -/
def warnings (table : SymbolTable) : Expression → List Event
  | .indicator _ => []
  | .arithmetic tree =>
      (tree.symbols.filter fun name => !table.contains name).map fun name =>
        .unknownVariable name tree
  | .invalid text error => [.unparsable text error]

/-- What executing a statement reports. -/
def reports (run : Run) (statement : Statement) : List Event :=
  match statement.action with
  | .assign target expression =>
      warnings run.symbols expression ++
        match expression.evaluate run.symbols with
        | .ok _ => [.assigned statement.line target expression]
        | .error _ => []
  | .plot plot =>
      match run.symbols.get? plot.series with
      | some series =>
          let drawn := PlotResult.assemble plot.title plot.color run.bars series
          [.plotted statement.line drawn.name drawn.data.length]
      | none => [.plotSkipped statement.line plot.series run.symbols.names]

/-- What taking a line reports. -/
def lineReports (run : Run) : Line → List Event
  | .declaration title => [.declaration title]
  | .statement statement => run.reports statement

/-- Take numbered lines in order and report on each, up to the first that is faulty or
fails. -/
def traceLines (run : Run) : List (Nat × List Char) → List Event × Except ScriptError Run
  | [] => ([], .ok run)
  | (number, raw) :: rest =>
      let notices := (Line.form raw).notices number
      match Line.parse number raw with
      | .error e => (notices, .error e)
      | .ok none =>
          let (events, result) := run.traceLines rest
          (notices ++ events, result)
      | .ok (some line) =>
          let reported := notices ++ run.lineReports line
          match run.take line with
          | .error e => (reported, .error e)
          | .ok run =>
              let (events, result) := run.traceLines rest
              (reported ++ events, result)

/-- Run a script over some bars and report on it. -/
def trace (script : List Char) (bars : List Bar) : List Event × Outcome :=
  match (start bars).traceLines (Script.numbered script) with
  | (events, .ok run) => (.running bars.length :: events, .success run.results)
  | (events, .error e) =>
      (.running bars.length :: events ++ [.failed e], .failure e.message)

/-- Reporting on some lines leaves what they come to as it is. -/
theorem traceLines_snd (run : Run) (numbered : List (Nat × List Char)) :
    (run.traceLines numbered).2 = run.takeAll (numbered.filterMap Script.readLine?) := by
  induction numbered generalizing run with
  | nil => rfl
  | cons head rest ih =>
      obtain ⟨number, raw⟩ := head
      rw [traceLines]
      cases hparse : Line.parse number raw with
      | error e => simp [Script.readLine?, hparse, takeAll]
      | ok line? =>
          cases line? with
          | none => simp [Script.readLine?, hparse, ih]
          | some line =>
              simp only [Script.readLine?, hparse, List.filterMap_cons, takeAll]
              cases run.take line with
              | error e => rfl
              | ok run => exact ih run

/-- A traced run comes to the same as an untraced one. -/
theorem trace_snd (script : List Char) (bars : List Bar) :
    (trace script bars).2 = outcome script bars := by
  have h := traceLines_snd (start bars) (Script.numbered script)
  simp only [trace, outcome, plots, Script.readLines, ← h]
  generalize (start bars).traceLines (Script.numbered script) = traced
  obtain ⟨events, result⟩ := traced
  cases result <;> rfl

end Run

end ChartScript
