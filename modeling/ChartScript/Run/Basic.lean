/-
Running scripts.

A run starts with the series of its bars and no plots.  An assignment binds its target
to a new series, and a plot statement that names a bound series adds a plot of it as it
stands; a plot of anything else is passed over.  Only an indicator whose source is not
bound can fail.

Reading and execution take turns: a line is read after every line above it has been
executed, and the first line that fails, in either way, ends the run.
-/
import ChartScript.Plot
import ChartScript.Script.Basic

namespace ChartScript

/-- The state of one run. -/
structure Run where
  bars : List Bar
  symbols : SymbolTable
  /-- The plots so far, in order. -/
  results : List PlotResult

namespace Run

/-- The state a run over some bars starts in. -/
def start (bars : List Bar) : Run :=
  ⟨bars, .ofBars bars, []⟩

/-- Bind a name. -/
def bind (run : Run) (target : String) (series : Series) : Run :=
  { run with symbols := run.symbols.insert target series }

/-- Plot a series, if it is bound. -/
def draw (run : Run) (plot : PlotStatement) : Run :=
  match run.symbols.get? plot.series with
  | none => run
  | some series =>
      { run with
        results := run.results ++ [.assemble plot.title plot.color run.bars series] }

/-- Execute a statement. -/
def execute (run : Run) (statement : Statement) : Except ScriptError Run :=
  match statement.action with
  | .assign target expression =>
      match expression.evaluate run.symbols with
      | .ok series => .ok (run.bind target series)
      | .error fault => .error ⟨statement.line, fault⟩
  | .plot plot => .ok (run.draw plot)

/-- Execute some statements in order, up to the first that fails. -/
def executeAll (run : Run) : List Statement → Except ScriptError Run
  | [] => .ok run
  | statement :: rest =>
      match run.execute statement with
      | .ok run => run.executeAll rest
      | .error e => .error e

/-- Take one line of a script. -/
def take (run : Run) : Line → Except ScriptError Run
  | .declaration _ => .ok run
  | .statement statement => run.execute statement

/-- Take some lines in order, up to the first that is faulty or fails. -/
def takeAll (run : Run) : List (Except ScriptError Line) → Except ScriptError Run
  | [] => .ok run
  | .error e :: _ => .error e
  | .ok line :: rest =>
      match run.take line with
      | .ok run => run.takeAll rest
      | .error e => .error e

/-- The lines that some lines get through, each with the state after it. -/
def steps (run : Run) : List (Except ScriptError Line) → List (Line × Run)
  | [] => []
  | .error _ :: _ => []
  | .ok line :: rest =>
      match run.take line with
      | .ok run => (line, run) :: run.steps rest
      | .error _ => []

/-- The plots of a script over some bars. -/
def plots (script : List Char) (bars : List Bar) : Except ScriptError (List PlotResult) :=
  match (start bars).takeAll (Script.readLines script) with
  | .ok run => .ok run.results
  | .error e => .error e

/-- What running a script over some bars comes to. -/
def outcome (script : List Char) (bars : List Bar) : Outcome :=
  match plots script bars with
  | .ok results => .success results
  | .error e => .failure e.message

end Run

end ChartScript
