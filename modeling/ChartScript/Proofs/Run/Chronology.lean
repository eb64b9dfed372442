/-
The order of time in a run.

A plot takes its times from the bars, in their order, and leaves out some of them.  So where
the bars ascend, the times of every plot do.  With what is known of the bars of some rows,
this makes everything that a run shows independent of how the rows came.
-/
import ChartScript.Proofs.Bar
import ChartScript.Proofs.Run.Drawing
import ChartScript.Run.Pipeline

namespace ChartScript

/-- The times of a plot ascend if those of the bars do. -/
theorem PlotResult.data_ascends {bars : List Bar} (h : bars.Pairwise fun a b => a.time < b.time)
    (name color : String) (series : List Float) :
    (assemble name color bars series).data.Pairwise fun a b => a.time < b.time := by
  have hpairs : (bars.zip series).Pairwise fun a b => a.1.time < b.1.time := by
    induction bars generalizing series with
    | nil => exact .nil
    | cons bar rest ih =>
        obtain ⟨hfirst, hrest⟩ := List.pairwise_cons.mp h
        cases series with
        | nil => exact .nil
        | cons value values =>
            rw [List.zip_cons_cons]
            refine .cons ?_ (ih hrest values)
            intro pair hpair
            exact hfirst pair.1 (List.of_mem_zip hpair).1
  have htime : ∀ {pair : Bar × Float} {point : PlotPoint},
      PlotPoint.ofBar? pair.1 pair.2 = some point → point.time = pair.1.time := by
    intro pair point hpoint
    unfold PlotPoint.ofBar? at hpoint
    split at hpoint
    · cases hpoint
      rfl
    · cases hpoint
  refine hpairs.filterMap _ ?_
  intro pair other hlt point hpoint more hmore
  rw [htime hpoint, htime hmore]
  exact hlt

namespace Run

/-- The times of every plot in an outcome ascend if those of the bars do. -/
theorem outcome_ascends {bars : List Bar} (h : bars.Pairwise fun a b => a.time < b.time)
    (script : List Char) {plot : PlotResult} (hplot : plot ∈ (outcome script bars).results) :
    plot.data.Pairwise fun a b => a.time < b.time := by
  cases hrun : (start bars).takeAll (Script.readLines script) with
  | error e =>
      rw [outcome_of_takeAll_eq_error hrun] at hplot
      exact absurd hplot List.not_mem_nil
  | ok final =>
      rw [outcome_of_takeAll_eq_ok hrun] at hplot
      obtain ⟨drawing, -, rfl⟩ := List.mem_map.mp hplot
      exact PlotResult.data_ascends h _ _ _

/-- A pipeline that comes to an outcome has run the script over the bars it was given. -/
theorem outcome_of_pipeline {bars : List Bar} {symbol : String} {script : List Char}
    {result : Outcome} (h : pipeline (.ok bars) symbol script = .ok result) :
    result = outcome script bars := by
  cases bars with
  | nil => cases h
  | cons bar rest =>
      cases h
      rfl

/--
**The order of rows and the gaps among them do not matter.**  The bars of some rows show the
complete rows, each once, ascending by time, and rows of one time in the order they came in.
If no two complete rows have one time, then rows that arrive in another order, or with more
or fewer gaps, make the same bars, and every script comes to the same over them; and the
times of every plot ascend strictly.
-/
theorem row_order_and_gaps_do_not_matter :
    (∀ rows : List Row, ∃ sorted : List Row,
      sorted.Perm (rows.filter Row.isComplete) ∧
      (sorted.Pairwise fun a b => a.time ≤ b.time) ∧
      (∀ time, sorted.filter (·.time == time) =
        (rows.filter Row.isComplete).filter (·.time == time)) ∧
      List.Forall₂ Row.Shows sorted (Bar.ofRows rows)) ∧
    ∀ rows : List Row, ((rows.filter Row.isComplete).map Row.time).Nodup →
      (∀ others, Row.Rearranged rows others →
        Bar.ofRows others = Bar.ofRows rows ∧
        ∀ symbol script, pipeline (.ok (Bar.ofRows others)) symbol script =
          pipeline (.ok (Bar.ofRows rows)) symbol script) ∧
      ∀ symbol script result, pipeline (.ok (Bar.ofRows rows)) symbol script = .ok result →
        ∀ plot ∈ result.results, plot.data.Pairwise fun a b => a.time < b.time := by
  refine ⟨fun rows => ⟨Row.inOrder rows, Row.inOrder_perm rows, Row.inOrder_ascends rows,
    Row.filter_inOrder rows, Bar.shows_ofRows rows⟩, ?_⟩
  intro rows hdistinct
  constructor
  · intro others hrearranged
    have hbars : Bar.ofRows others = Bar.ofRows rows :=
      Bar.ofRows_of_rearranged hrearranged hdistinct
    exact ⟨hbars, fun symbol script => by rw [hbars]⟩
  · intro symbol script result hresult plot hplot
    rw [outcome_of_pipeline hresult] at hplot
    exact outcome_ascends (Bar.ofRows_ascends hdistinct) script hplot

/-- Two rows the wrong way round with a gap between them come to the same as the two in
order, and their plot ascends. -/
theorem row_order_and_gaps_around_two_bars :
    let first : Row := ⟨60, some 1.0, none, some 0.5, some 1.5, none⟩
    let second : Row := ⟨120, some 1.5, some 2.5, none, some 2.0, some 10.0⟩
    let gap : Row := ⟨60, none, some 9.0, some 9.0, some 9.0, some 9.0⟩
    let script := "plot(close)".toList
    Bar.ofRows [second, gap, first] = Bar.ofRows [first, second] ∧
      ∃ plot, pipeline (.ok (Bar.ofRows [second, gap, first])) "S" script =
          .ok (.success [plot]) ∧
        plot.data = [⟨60, 1.5⟩, ⟨120, 2.0⟩] ∧
        plot.data.Pairwise fun a b => a.time < b.time := by
  intro first second gap script
  have hdistinct : (([first, second].filter Row.isComplete).map Row.time).Nodup := by decide
  have hrearranged : Row.Rearranged [first, second] [second, gap, first] :=
    .trans (.reordered (List.Perm.swap second first [])) (.gapInserted [second] [first] rfl)
  obtain ⟨hsame, hascends⟩ := row_order_and_gaps_do_not_matter.2 [first, second] hdistinct
  obtain ⟨hbars, hpipeline⟩ := hsame _ hrearranged
  have hordered : Bar.ofRows [first, second] = [first.bar, second.bar] :=
    List.mergeSort_of_pairwise (by decide)
  have hrun : pipeline (.ok (Bar.ofRows [first, second])) "S" script =
      .ok (.success [⟨"Indicator", "#2962FF", [⟨60, 1.5⟩, ⟨120, 2.0⟩]⟩]) := by
    rw [hordered]
    decide +kernel
  refine ⟨hbars, _, (hpipeline "S" script).trans hrun, rfl, ?_⟩
  exact hascends "S" script _ hrun _ (List.mem_singleton_self _)

end Run

end ChartScript
