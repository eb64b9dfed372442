/-
What a run draws.

A plot result keeps only the points at which its series is finite, so it no longer tells
which bar a point came from.  A drawing is the plot with the whole series behind it.  The
drawings of a run are read off its steps, and the results of a run that gets through are
its drawings over its bars.
-/
import ChartScript.Proofs.Run.Steps

namespace ChartScript

/-- A plot with the whole series that it draws. -/
structure Drawing where
  plot : PlotStatement
  series : Series

/-- What a drawing shows over some bars. -/
def Drawing.over (bars : List Bar) (d : Drawing) : PlotResult :=
  .assemble d.plot.title d.plot.color bars d.series

namespace Run

/-- What a line draws in a state, if anything. -/
def drawing? (run : Run) : Line → Option Drawing
  | .declaration _ => none
  | .statement s =>
      match s.action with
      | .assign _ _ => none
      | .plot plot => (run.symbols.get? plot.series).map fun series => ⟨plot, series⟩

/-- What the lines of a run draw, up to the first that is faulty or fails. -/
def drawings (run : Run) (lines : List (Except ScriptError Line)) : List Drawing :=
  (run.steps lines).filterMap fun (line, next) => next.drawing? line

/-- What running a script over some bars draws. -/
def drawn (script : List Char) (bars : List Bar) : List Drawing :=
  (start bars).drawings (Script.readLines script)

theorem bars_take {run next : Run} {line : Line} (h : run.take line = .ok next) :
    next.bars = run.bars := by
  cases line with
  | declaration title => cases h; rfl
  | statement s =>
      rw [← ((execute_eq_ok_iff run next s).mp h).2]
      exact bars_after run s

/-- A line adds the plot of its drawing to the results, and nothing else. -/
theorem results_take {run next : Run} {line : Line} (h : run.take line = .ok next) :
    next.results = run.results ++ (next.drawing? line).toList.map (Drawing.over run.bars) := by
  cases line with
  | declaration title => cases h; simp [drawing?]
  | statement s =>
      rw [← ((execute_eq_ok_iff run next s).mp h).2]
      cases ha : s.action with
      | assign target expression => simp [after, drawing?, ha, bind]
      | plot plot =>
          simp only [after, drawing?, ha, symbols_draw]
          unfold draw
          cases run.symbols.get? plot.series with
          | none => simp
          | some series => rfl

theorem drawings_cons {run next : Run} {line : Line} (h : run.take line = .ok next)
    (rest : List (Except ScriptError Line)) :
    run.drawings (.ok line :: rest) = (next.drawing? line).toList ++ next.drawings rest := by
  simp only [drawings, steps, h, List.filterMap_cons]
  cases next.drawing? line <;> rfl

/-- Behind a line that fails nothing is drawn. -/
theorem drawings_of_take_eq_error {run : Run} {line : Line} {e : ScriptError}
    (h : run.take line = .error e) (rest : List (Except ScriptError Line)) :
    run.drawings (.ok line :: rest) = [] := by
  simp [drawings, steps, h]

/-- **The results of a run are its drawings over its bars.** -/
theorem results_takeAll {run final : Run} {lines : List (Except ScriptError Line)}
    (h : run.takeAll lines = .ok final) :
    final.results = run.results ++ (run.drawings lines).map (Drawing.over run.bars) := by
  induction lines generalizing run with
  | nil => cases h; simp [drawings, steps]
  | cons item rest ih =>
      cases item with
      | error e => cases h
      | ok line =>
          simp only [takeAll] at h
          cases htake : run.take line with
          | error e => rw [htake] at h; cases h
          | ok next =>
              rw [htake] at h
              rw [ih h, results_take htake, bars_take htake, drawings_cons htake, List.map_append,
                List.append_assoc]

theorem outcome_of_takeAll_eq_error {script : List Char} {bars : List Bar} {e : ScriptError}
    (h : (start bars).takeAll (Script.readLines script) = .error e) :
    outcome script bars = .failure e.message := by
  simp [outcome, plots, h]

/-- A script that gets through shows what it draws. -/
theorem outcome_of_takeAll_eq_ok {script : List Char} {bars : List Bar} {final : Run}
    (h : (start bars).takeAll (Script.readLines script) = .ok final) :
    outcome script bars = .success ((drawn script bars).map (Drawing.over bars)) := by
  simp only [outcome, plots, h, results_takeAll h]
  rfl

end Run

end ChartScript
