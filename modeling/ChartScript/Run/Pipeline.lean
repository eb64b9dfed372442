/-
Running a script over the bars of a symbol.

The bars come from somewhere that may fail to deliver them.  If they come and there is
at least one, the script is run over them; a script that fails is an outcome and not a
failure.
-/
import ChartScript.Failure
import ChartScript.Run.Trace

namespace ChartScript.Run

/-- The outcome of a script over what a source delivers for a symbol. -/
def pipeline (delivered : Except Failure (List Bar)) (symbol : String) (script : List Char) :
    Except Failure Outcome :=
  match delivered with
  | .error failure => .error failure
  | .ok [] => .error (.noBars symbol)
  | .ok bars => .ok (outcome script bars)

/-- The same with what is reported on the way. -/
def pipelineTrace (delivered : Except Failure (List Bar)) (symbol : String)
    (script : List Char) : List Event × Except Failure Outcome :=
  match delivered with
  | .error failure => ([], .error failure)
  | .ok [] => ([], .error (.noBars symbol))
  | .ok bars =>
      let (events, outcome) := trace script bars
      (.loadedBars symbol bars.length :: events, .ok outcome)

/-- Reporting leaves what a pipeline comes to as it is. -/
theorem pipelineTrace_snd (delivered : Except Failure (List Bar)) (symbol : String)
    (script : List Char) :
    (pipelineTrace delivered symbol script).2 = pipeline delivered symbol script := by
  unfold pipelineTrace pipeline
  split <;> simp [trace_snd]

end ChartScript.Run
