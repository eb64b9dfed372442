/-
Assignments that nothing reads.

An assignment is dead if no statement below it reads its target before the next assignment to
the same name.  With it and without it, two runs agree on every name but the target.  No
statement that does not read the target tells them apart, and the next assignment to the
target, which does not read it either, makes them agree on that name as well.  So a dead
assignment that does not fail itself can be dropped.
-/
import ChartScript.Proofs.Run.Frame
import ChartScript.Proofs.Run.Layout

namespace ChartScript

open Text

namespace Script

/-- Of some lines, none that a run can come to reads a name before it is assigned.  The
assignment itself does not read it, and no run gets past a faulty line. -/
def Unread (name : String) : List (Except ScriptError Line) → Prop
  | [] => True
  | .error _ :: _ => True
  | .ok (.declaration _) :: rest => Unread name rest
  | .ok (.statement s) :: rest => name ∉ s.reads ∧ (s.target? = some name ∨ Unread name rest)

instance decidableUnread (name : String) :
    (lines : List (Except ScriptError Line)) → Decidable (Unread name lines)
  | [] => .isTrue trivial
  | .error _ :: _ => .isTrue trivial
  | .ok (.declaration _) :: rest => decidableUnread name rest
  | .ok (.statement s) :: rest =>
      have := decidableUnread name rest
      inferInstanceAs (Decidable (name ∉ s.reads ∧ (s.target? = some name ∨ Unread name rest)))

end Script

namespace Run

variable {target : String}

/-- Binding a name leaves a run in agreement on all other names. -/
theorem bind_agree (run : Run) (target : String) (series : Series) :
    Agree (fun name => name ≠ target) (run.bind target series) run :=
  ⟨rfl, run.symbols.insert_agree target series, rfl⟩

/-- **Lines that do not read a name keep runs in agreement on all other names.** -/
theorem takeAll_of_unread {a b : Run} (h : Agree (fun name => name ≠ target) a b)
    {lines : List (Except ScriptError Line)} (hunread : Script.Unread target lines) :
    Lockstep (Agree fun name => name ≠ target) (a.takeAll lines) (b.takeAll lines) := by
  induction lines generalizing a b with
  | nil => exact .reached h
  | cons item rest ih =>
      match item, hunread with
      | .error e, _ => exact .failed e
      | .ok (.declaration title), hrest => exact ih h hrest
      | .ok (.statement s), ⟨hreads, hrest⟩ =>
          have hstep := h.execute (s := s) fun name hmem heq => hreads (heq ▸ hmem)
          simp only [takeAll, take]
          rcases hstep.alike with ⟨e, ha, hb⟩ | ⟨a', b', ha, hb, hnext⟩
          · rw [ha, hb]
            exact .failed e
          rw [ha, hb]
          rcases hrest with hassigned | hrest
          · -- From here on the runs agree on every name.
            have hall : Agree (fun _ => True) a' b' := by
              refine hnext.mono fun name _ => ?_
              by_cases hname : name = target
              · exact Or.inr (hname ▸ hassigned)
              · exact Or.inl hname
            exact (hall.takeAll rest).mono fun _ _ hlast => hlast.mono fun _ _ => trivial
          · exact ih (hnext.mono fun _ hname => Or.inl hname) hrest

/--
**Dead assignments can be dropped.**  Take any row of a script that is an assignment whose
right-hand side has a series there.  If no line below reads the target before the next
assignment to it, that one's right-hand side included, then an idle row, such as a blank one,
can stand in its place: the script comes to the same plots, or to the same error on the same
line.
-/
theorem plots_without_dead_assignment (above below : List (List Char)) (row idle : List Char)
    (target : String) (expression : Expression) (bars : List Bar)
    (hrows : ∀ r ∈ above ++ row :: below, '\n' ∉ r)
    (hassigns : Line.parse (above.length + 1) row =
      .ok (some (.statement ⟨above.length + 1, .assign target expression⟩)))
    (hseries : ∀ run, (start bars).takeAll (Script.readLines (ofRows above)) = .ok run →
      ∃ series, expression.evaluate run.symbols = .ok series)
    (hunread : Script.Unread target (Script.readRows (above.length + 2) below))
    (hnewline : '\n' ∉ idle) (hidle : (Line.form idle).IsIdle) :
    plots (ofRows (above ++ idle :: below)) bars = plots (ofRows (above ++ row :: below)) bars := by
  obtain ⟨habove, hrest⟩ := List.forall_mem_append.mp hrows
  have hrows' : ∀ r ∈ above ++ idle :: below, '\n' ∉ r :=
    List.forall_mem_append.mpr
      ⟨habove, List.forall_mem_cons.mpr ⟨hnewline, (List.forall_mem_cons.mp hrest).2⟩⟩
  rw [plots_eq_map, plots_eq_map, takeAll_ofRows_append hrows, takeAll_ofRows_append hrows']
  cases hrun : (start bars).takeAll (Script.readLines (ofRows above)) with
  | error e => rfl
  | ok run =>
      obtain ⟨series, heval⟩ := hseries run hrun
      have hidleRow : ∀ r ∈ [idle], (Line.form r).IsIdle := by simpa using hidle
      have hdropped : run.takeAll (Script.readRows (above.length + 1) (idle :: below)) =
          run.takeAll (Script.readRows (above.length + 2) below) :=
        takeAll_idle hidleRow run _ below
      have hkept : run.takeAll (Script.readRows (above.length + 1) (row :: below)) =
          (run.bind target series).takeAll (Script.readRows (above.length + 2) below) := by
        simp only [takeAll_statement hassigns, execute, heval]
      simp only [hdropped, hkept]
      exact (takeAll_of_unread (run.bind_agree target series) hunread).results_eq.symm

/-- An assignment to `high` is dead if `high` is assigned once more before an indicator that
reads it without naming it. -/
theorem plots_without_overwritten_high :
    let above := ["x = close"].map String.toList
    let row := "high = ta.sma(x, 1)".toList
    let below := ["plot(x)", "high = volume", "y = ta.atr(1)", "plot(y)"].map String.toList
    let bars : List Bar := [⟨60, 1.0, 2.0, 0.5, 1.5, 10.0⟩]
    Script.Unread "high" (Script.readRows 3 below) ∧
      plots (ofRows (above ++ [] :: below)) bars = plots (ofRows (above ++ row :: below)) bars := by
  intro above row below bars
  have hassigns : Line.parse 2 row =
      .ok (some (.statement ⟨2, .assign "high" (.indicator (.sma "x" 1))⟩)) := by decide +kernel
  have hseries : ∀ run, (start bars).takeAll (Script.readLines (ofRows above)) = .ok run →
      ∃ series, (Expression.indicator (.sma "x" 1)).evaluate run.symbols = .ok series := by
    intro run hrun
    have hbound : ((start bars).takeAll (Script.readLines (ofRows above))).map
        (fun run => run.symbols.contains "x") = .ok true := by decide +kernel
    rw [hrun] at hbound
    obtain ⟨series, hget⟩ := SymbolTable.contains_eq_true_iff.mp (Except.ok.inj hbound)
    exact ⟨_, by simp [Expression.evaluate, Indicator.compute, Indicator.source, hget]; rfl⟩
  have hunread : Script.Unread "high" (Script.readRows 3 below) := by decide +kernel
  exact ⟨hunread, plots_without_dead_assignment above below row [] "high" _ bars (by decide)
    hassigns hseries hunread (by decide) (Line.isIdle_of_blanks (by simp))⟩

end Run

end ChartScript
