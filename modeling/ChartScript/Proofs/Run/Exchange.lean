/-
Statements in the other order.

Two statements are independent if neither reads or assigns what the other assigns.  Each of
them then has the same series, or the same point to plot, behind the other as in front of it,
so both orders lead to the same table.  The plots are the same too unless both statements
plot: these two plots would change places.
-/
import ChartScript.Proofs.Run.Frame
import ChartScript.Proofs.Run.Layout

namespace ChartScript

open Text

/-- Two statements can change places: one of them assigns, and neither reads or assigns what
the other assigns. -/
structure Statement.Exchangeable (s t : Statement) : Prop where
  assigns : s.target? ≠ none ∨ t.target? ≠ none
  distinct : ∀ name, s.target? = some name → t.target? ≠ some name
  first : ∀ name, s.target? = some name → name ∉ t.reads
  second : ∀ name, t.target? = some name → name ∉ s.reads

namespace Run

variable {run mid final : Run} {s t : Statement}

/-! ### Two statements -/

theorem execute_assign_eq_ok_iff {target : String} {expression : Expression}
    (h : s.action = .assign target expression) :
    run.execute s = .ok final ↔
      ∃ series, expression.evaluate run.symbols = .ok series ∧ run.bind target series = final := by
  simp only [execute, h]
  cases expression.evaluate run.symbols <;> simp

theorem execute_plot {plot : PlotStatement} (h : s.action = .plot plot) :
    run.execute s = .ok (run.draw plot) := by
  simp only [execute, h]

/-- A plot of one name and an assignment to another lead to the same state in either order. -/
theorem draw_bind {plot : PlotStatement} {target : String} (hne : plot.series ≠ target)
    (run : Run) (series : Series) :
    (run.bind target series).draw plot = (run.draw plot).bind target series := by
  simp only [draw, bind, SymbolTable.get?_insert, if_neg hne.symm]
  cases run.symbols.get? plot.series <;> rfl

/-- **Two statements that can change places lead to runs that agree.** -/
theorem execute_exchange (h : s.Exchangeable t) (hs : run.execute s = .ok mid)
    (ht : mid.execute t = .ok final) :
    ∃ mid' final', run.execute t = .ok mid' ∧ mid'.execute s = .ok final' ∧
      Agree (fun _ => True) final final' := by
  cases hsa : s.action with
  | plot p =>
      cases hta : t.action with
      | plot q =>
          have hassigns := h.assigns
          simp [Statement.target?, hsa, hta] at hassigns
      | assign y f =>
          have hreads := h.second y (by simp [Statement.target?, hta])
          have hne : p.series ≠ y := by
            simpa [Statement.reads, hsa, eq_comm] using hreads
          rw [execute_plot hsa] at hs
          cases hs
          obtain ⟨w, hw, rfl⟩ := (execute_assign_eq_ok_iff hta).mp ht
          rw [symbols_draw] at hw
          refine ⟨run.bind y w, (run.bind y w).draw p,
            (execute_assign_eq_ok_iff hta).mpr ⟨w, hw, rfl⟩, execute_plot hsa, ?_⟩
          rw [draw_bind hne]
          exact Agree.refl _
  | assign x e =>
      obtain ⟨v, hv, rfl⟩ := (execute_assign_eq_ok_iff hsa).mp hs
      have hreads := h.first x (by simp [Statement.target?, hsa])
      cases hta : t.action with
      | plot p =>
          have hne : p.series ≠ x := by
            simpa [Statement.reads, hta, eq_comm] using hreads
          rw [execute_plot hta, draw_bind hne] at ht
          cases ht
          refine ⟨run.draw p, (run.draw p).bind x v, execute_plot hta,
            (execute_assign_eq_ok_iff hsa).mpr ⟨v, ?_, rfl⟩, Agree.refl _⟩
          rw [symbols_draw, hv]
      | assign y f =>
          have hreads' := h.second y (by simp [Statement.target?, hta])
          have hdistinct := h.distinct x (by simp [Statement.target?, hsa])
          have hne : x ≠ y := by
            simpa [Statement.target?, hta, eq_comm] using hdistinct
          obtain ⟨w, hw, rfl⟩ := (execute_assign_eq_ok_iff hta).mp ht
          -- Neither right-hand side reads the other target.
          have hw' : f.evaluate run.symbols = .ok w := by
            have hf : x ∉ f.reads := by simpa [Statement.reads, hta] using hreads
            rw [← hw]
            exact (Expression.evaluate_insert hf run.symbols v).symm
          have hv' : e.evaluate (run.bind y w).symbols = .ok v := by
            have he : y ∉ e.reads := by simpa [Statement.reads, hsa] using hreads'
            rw [← hv]
            exact Expression.evaluate_insert he run.symbols w
          exact ⟨run.bind y w, (run.bind y w).bind x v,
            (execute_assign_eq_ok_iff hta).mpr ⟨w, hw', rfl⟩,
            (execute_assign_eq_ok_iff hsa).mpr ⟨v, hv', rfl⟩,
            rfl, run.symbols.insert_insert_agree hne v w, rfl⟩

/-! ### Two rows -/

/-- A row with another number is read as the same statement with this number. -/
theorem parse_statement_renumber {number : Nat} {row : List Char}
    (h : Line.parse number row = .ok (some (.statement s))) (other : Nat) :
    Line.parse other row = .ok (some (.statement (s.renumber fun _ => other))) := by
  refine (Line.parse_renumber (fun _ => other) number row).trans ?_
  rw [h]
  rfl

/-- A statement that does not fail does the same on another line. -/
theorem execute_renumber_of_eq_ok (h : run.execute s = .ok final) (f : Nat → Nat) :
    run.execute (s.renumber f) = .ok final := by
  rw [execute_renumber, h]
  rfl

/-- Rows that get through come to the same plots after two of their statements have changed
places. -/
theorem takeAll_exchange {first second : List Char} {gap below : List (List Char)} {m n : Nat}
    (hfirst : Line.parse m first = .ok (some (.statement s)))
    (hsecond : Line.parse n second = .ok (some (.statement t)))
    (hgap : ∀ row ∈ gap, (Line.form row).IsIdle) (h : s.Exchangeable t)
    (hn : n = m + 1 + gap.length)
    (hrun : run.takeAll (Script.readRows m (first :: (gap ++ second :: below))) = .ok final) :
    ∃ final', run.takeAll (Script.readRows m (second :: (gap ++ first :: below))) = .ok final' ∧
      Agree (fun _ => True) final final' := by
  subst hn
  rw [takeAll_statement hfirst] at hrun
  cases hs : run.execute s with
  | error e => rw [hs] at hrun; cases hrun
  | ok mid =>
      simp only [hs] at hrun
      rw [takeAll_idle hgap, takeAll_statement hsecond] at hrun
      cases ht : mid.execute t with
      | error e => rw [ht] at hrun; cases hrun
      | ok after =>
          simp only [ht] at hrun
          obtain ⟨mid', after', ht', hs', hagree⟩ := execute_exchange h hs ht
          rw [takeAll_statement (parse_statement_renumber hsecond m), execute_renumber_of_eq_ok ht']
          simp only
          rw [takeAll_idle hgap, takeAll_statement (parse_statement_renumber hfirst _),
            execute_renumber_of_eq_ok hs']
          rcases (hagree.takeAll (Script.readRows (m + 1 + gap.length + 1) below)).alike with
            ⟨e, ha, hb⟩ | ⟨a, b, ha, hb, hlast⟩
          · cases hrun.symm.trans ha
          · cases hrun.symm.trans ha
            exact ⟨b, hb, hlast⟩

/--
**Independent statements can change places.**  Take two rows of a script that are statements,
with nothing but idle rows between them, of which not both plot and neither reads or assigns
what the other assigns.  If the script gets through, it gets through with the two rows
exchanged, and to equal plots.
-/
theorem plots_of_exchanged_rows (above gap below : List (List Char)) (first second : List Char)
    (s t : Statement) (bars : List Bar) (results : List PlotResult)
    (hrows : ∀ row ∈ above ++ first :: (gap ++ second :: below), '\n' ∉ row)
    (hfirst : Line.parse (above.length + 1) first = .ok (some (.statement s)))
    (hsecond : Line.parse (above.length + 2 + gap.length) second = .ok (some (.statement t)))
    (hgap : ∀ row ∈ gap, (Line.form row).IsIdle) (hexchangeable : s.Exchangeable t)
    (hplots : plots (ofRows (above ++ first :: (gap ++ second :: below))) bars = .ok results) :
    plots (ofRows (above ++ second :: (gap ++ first :: below))) bars = .ok results := by
  have hrows' : ∀ row ∈ above ++ second :: (gap ++ first :: below), '\n' ∉ row := by
    intro row hmem
    refine hrows row ?_
    simp only [List.mem_append, List.mem_cons] at hmem ⊢
    tauto
  rw [plots_eq_map, takeAll_ofRows_append hrows] at hplots
  rw [plots_eq_map, takeAll_ofRows_append hrows']
  cases habove : (start bars).takeAll (Script.readLines (ofRows above)) with
  | error e => rw [habove] at hplots; cases hplots
  | ok run =>
      simp only [habove] at hplots
      cases hrest : run.takeAll
          (Script.readRows (above.length + 1) (first :: (gap ++ second :: below))) with
      | error e => rw [hrest] at hplots; cases hplots
      | ok final =>
          obtain ⟨final', hfinal', hagree⟩ :=
            takeAll_exchange hfirst hsecond hgap hexchangeable rfl hrest
          rw [hrest] at hplots
          simp only [hfinal']
          rw [← hplots]
          exact congrArg Except.ok hagree.results.symm

/-- An assignment to `x` can go behind the plot of a series of which it is no part. -/
theorem plots_of_exchanged_plot :
    let rows := ["y = close / 2", "x = ta.ema(y, 1)", "// of y", "plot(y, 'Y')", "plot(x)"].map
      String.toList
    let bars : List Bar := [⟨60, 1.0, 2.0, 0.5, 1.5, 10.0⟩]
    let results : List PlotResult :=
      [⟨"Y", "#2962FF", [⟨60, 0.75⟩]⟩, ⟨"Indicator", "#2962FF", [⟨60, 0.75⟩]⟩]
    plots (ofRows rows) bars = .ok results ∧
      plots (ofRows ([rows[0], rows[3], rows[2], rows[1], rows[4]])) bars = .ok results := by
  intro rows bars results
  let assign : Statement := ⟨2, .assign "x" (.indicator (.ema "y" 1))⟩
  let plot : Statement := ⟨4, .plot ⟨"y", "Y", "#2962FF"⟩⟩
  have hplots : plots (ofRows rows) bars = .ok results := by decide +kernel
  have hexchangeable : assign.Exchangeable plot := by
    refine ⟨Or.inl (by decide), fun _ _ => by simp [plot, Statement.target?], ?_, ?_⟩
    · intro name hname
      cases hname
      decide
    · intro name hname
      cases hname
  exact ⟨hplots, plots_of_exchanged_rows [rows[0]] [rows[2]] [rows[4]] rows[1] rows[3] assign plot
    bars results (by decide) (by decide +kernel) (by decide +kernel) (by decide +kernel)
    hexchangeable hplots⟩

end Run

end ChartScript
