/-
Failure and the shape of the results do not depend on the bars.

Two runs of a script over any two lists of bars go in lockstep.  What they have in common
is which names are bound, and the name and color of every plot so far; a statement fails
by the names that are bound, binds a name whatever series it gets, and plots exactly the
names that are bound.  A value that is undefined or infinite, or a division by zero, stays
in its series and decides only which points a plot has.
-/
import ChartScript.Proofs.Run.Drawing

namespace ChartScript

/-- What a plot shows apart from its points. -/
def PlotResult.label (result : PlotResult) : String × String :=
  (result.name, result.color)

namespace Run

/-- Two runs that differ in values only. -/
structure Alike (a b : Run) : Prop where
  names : a.symbols.contains = b.symbols.contains
  labels : a.results.map PlotResult.label = b.results.map PlotResult.label

variable {a b : Run}

theorem start_alike (bars bars' : List Bar) : Alike (start bars) (start bars') := by
  refine ⟨?_, rfl⟩
  funext name
  show (SymbolTable.ofBars bars).contains name = (SymbolTable.ofBars bars').contains name
  rw [SymbolTable.contains_ofBars, SymbolTable.contains_ofBars]

/-- Drawing adds the label of a plot exactly if its series is bound. -/
theorem labels_draw (run : Run) (plot : PlotStatement) :
    (run.draw plot).results.map PlotResult.label =
      run.results.map PlotResult.label ++
        if run.symbols.contains plot.series then [(plot.title, plot.color)] else [] := by
  unfold draw
  cases h : run.symbols.contains plot.series with
  | false => simp [SymbolTable.get?_eq_none_of_not_contains h]
  | true =>
      rw [SymbolTable.get?_eq_read h]
      simp [PlotResult.label, PlotResult.assemble]

theorem Alike.after (h : Alike a b) (s : Statement) : Alike (a.after s) (b.after s) := by
  refine ⟨?_, ?_⟩
  · funext name
    rw [contains_after, contains_after, h.names]
  · unfold Run.after
    cases s.action with
    | assign target expression => exact h.labels
    | plot plot => rw [labels_draw, labels_draw, h.labels, h.names]

theorem Alike.execute (a b : Run) (s : Statement) (h : Alike a b) :
    Lockstep Alike (a.execute s) (b.execute s) :=
  execute_lockstep h.names (h.after s)

/--
**Failure and shape do not depend on the bars.**  Over any two lists of bars a script
fails with the same message or not at all, and if it succeeds the results over the one
have the same names and colors, in the same order, as those over the other.
-/
theorem outcome_shape_independent_of_bars (script : List Char) (bars bars' : List Bar) :
    (∃ message, outcome script bars = .failure message ∧
      outcome script bars' = .failure message) ∨
    ∃ results results', outcome script bars = .success results ∧
      outcome script bars' = .success results' ∧
      results.length = results'.length ∧
      results.map PlotResult.label = results'.map PlotResult.label := by
  rcases (takeAll_lockstep Alike.execute (start_alike bars bars')
    (Script.readLines script)).alike with ⟨e, h, h'⟩ | ⟨final, final', h, h', halike⟩
  · exact Or.inl ⟨e.message, outcome_of_takeAll_eq_error h, outcome_of_takeAll_eq_error h'⟩
  · have hlength := congrArg List.length halike.labels
    rw [List.length_map, List.length_map] at hlength
    exact Or.inr ⟨final.results, final'.results, by simp [outcome, plots, h],
      by simp [outcome, plots, h'], hlength, halike.labels⟩

end Run

end ChartScript
