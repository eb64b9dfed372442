/-
What a plot shows: the definition of its series that reaches it.

A run goes over its lines once and overwrites series as it goes.  Read as a table, a script
says the same without a state.  The series of a name in front of a line is that of the last
assignment to the name above the line, computed from the table as it stood there, and the
part of the bars that the name stands for if no line above assigns it; `Reaches` says this
of a list of statements.  `get?_eq_some_iff_reaches` shows by induction from the last
statement backwards that this is what the table of a run holds.

The plots of a run that gets through are then read off the script.  Every plot statement
whose series is bound on the lines above it has one result, in the order of the lines, and
nothing else has any.
-/
import Mathlib.Data.List.Forall2
import Mathlib.Data.List.Induction
import ChartScript.Proofs.Run.Agreement
import ChartScript.Proofs.Run.Invariant

namespace ChartScript

namespace Script

instance (statements : List Statement) (line : Nat) (name : String) :
    Decidable (BoundBefore statements line name) :=
  inferInstanceAs (Decidable (name ∈ SymbolTable.builtinNames ∨
    ∃ s ∈ statements, s.line < line ∧ s.target? = some name))

/-- What a statement plots among others, with its line: the series it names, if that is
bound in front of the line. -/
def plotted? (statements : List Statement) (s : Statement) : Option (Nat × PlotStatement) :=
  match s.action with
  | .assign _ _ => none
  | .plot plot => if BoundBefore statements s.line plot.series then some (s.line, plot) else none

/-- What some statements plot, in their order. -/
def plotted (statements : List Statement) : List (Nat × PlotStatement) :=
  statements.filterMap (plotted? statements)

end Script

namespace Run

/-! ### Definitions -/

/-- The series `v` is what a name stands for behind some statements, over some bars. -/
inductive Reaches (bars : List Bar) (statements : List Statement) (name : String)
    (v : Series) : Prop
  /-- The last assignment to the name computes the series, in the table as it stands
  there. -/
  | assigned (above below : List Statement) (s : Statement) (expression : Expression)
      (run : Run) (split : statements = above ++ s :: below)
      (assigns : s.action = .assign name expression)
      (last : ∀ t ∈ below, t.target? ≠ some name)
      (executed : (start bars).executeAll above = .ok run)
      (computed : expression.evaluate run.symbols = .ok v)
  /-- No statement assigns the name, and the bars give its series. -/
  | builtin (get : Bar → Float) (isBuiltin : (name, get) ∈ SymbolTable.builtins)
      (unassigned : ∀ t ∈ statements, t.target? ≠ some name) (values : v = bars.map get)

variable {bars : List Bar} {statements : List Statement} {s : Statement} {name : String}
  {v : Series} {run : Run}

/-- A built-in name stands for one part of the bars only. -/
theorem get?_ofBars_eq_some_iff :
    (SymbolTable.ofBars bars).get? name = some v ↔
      ∃ get, (name, get) ∈ SymbolTable.builtins ∧ v = bars.map get := by
  have hdistinct : (SymbolTable.builtins.map (·.1)).Nodup := by decide
  have hfind : ∀ l : List (String × (Bar → Float)), (l.map (·.1)).Nodup →
      (((l.map fun b => (b.1, bars.map b.2)).find? fun b => b.1 == name).map (·.2) = some v ↔
        ∃ get, (name, get) ∈ l ∧ v = bars.map get) := by
    intro l hl
    induction l with
    | nil => simp
    | cons b rest ih =>
        obtain ⟨first, get⟩ := b
        obtain ⟨hfresh, hrest⟩ := List.nodup_cons.mp hl
        by_cases hname : first = name
        · subst hname
          have hnot : ∀ other, (first, other) ∉ rest := fun other hmem =>
            hfresh (List.mem_map.mpr ⟨(first, other), hmem, rfl⟩)
          simp [hnot, eq_comm]
        · have hne : name ≠ first := fun h => hname h.symm
          simpa [hname, hne] using ih hrest
  exact hfind SymbolTable.builtins hdistinct

/-- A statement that does not assign the name changes nothing about what it stands for. -/
theorem reaches_snoc_of_ne (hs : s.target? ≠ some name) :
    Reaches bars (statements ++ [s]) name v ↔ Reaches bars statements name v := by
  constructor
  · intro h
    cases h with
    | assigned above below t expression run split assigns last executed computed =>
        rcases List.eq_nil_or_concat below with rfl | ⟨front, b, rfl⟩
        · -- The assignment would be the statement itself.
          obtain ⟨-, ht⟩ := List.append_inj' split rfl
          obtain rfl := (List.cons.inj ht).1
          exact absurd (by simp [Statement.target?, assigns]) hs
        · rw [List.concat_eq_append, ← List.cons_append, ← List.append_assoc] at split
          obtain ⟨hfront, -⟩ := List.append_inj' split rfl
          refine .assigned above front t expression run hfront assigns ?_ executed computed
          intro u hu
          exact last u (by simp [hu])
    | builtin get isBuiltin unassigned values =>
        refine .builtin get isBuiltin ?_ values
        intro t ht
        exact unassigned t (List.mem_append_left _ ht)
  · intro h
    cases h with
    | assigned above below t expression run split assigns last executed computed =>
        refine .assigned above (below ++ [s]) t expression run (by simp [split]) assigns ?_
          executed computed
        intro u hu
        rcases List.mem_append.mp hu with hbelow | hlast
        · exact last u hbelow
        · rw [List.mem_singleton.mp hlast]
          exact hs
    | builtin get isBuiltin unassigned values =>
        refine .builtin get isBuiltin ?_ values
        intro t ht
        rcases List.mem_append.mp ht with hold | hlast
        · exact unassigned t hold
        · rw [List.mem_singleton.mp hlast]
          exact hs

/-- Behind an assignment its target stands for what the assignment computes. -/
theorem reaches_snoc_of_assign {expression : Expression}
    (hs : s.action = .assign name expression)
    (hrun : (start bars).executeAll statements = .ok run) :
    Reaches bars (statements ++ [s]) name v ↔ expression.evaluate run.symbols = .ok v := by
  have htarget : s.target? = some name := by simp [Statement.target?, hs]
  constructor
  · intro h
    cases h with
    | assigned above below t expression' run' split assigns last executed computed =>
        rcases List.eq_nil_or_concat below with rfl | ⟨front, b, rfl⟩
        · obtain ⟨habove, ht⟩ := List.append_inj' split rfl
          obtain rfl := (List.cons.inj ht).1
          rw [← habove, hrun] at executed
          cases executed
          rw [hs] at assigns
          cases assigns
          exact computed
        · -- The statement would stand below the last assignment.
          rw [List.concat_eq_append, ← List.cons_append, ← List.append_assoc] at split
          obtain ⟨-, hb⟩ := List.append_inj' split rfl
          obtain rfl := (List.cons.inj hb).1
          exact absurd htarget (last s (by simp))
    | builtin get isBuiltin unassigned values =>
        exact absurd htarget (unassigned s (by simp))
  · intro h
    exact .assigned statements [] s expression run rfl hs (by simp) hrun h

/-- Statements that get through have got through the first of them. -/
theorem executeAll_append_eq_ok {xs ys : List Statement} {final : Run}
    (h : run.executeAll (xs ++ ys) = .ok final) :
    ∃ mid, run.executeAll xs = .ok mid ∧ mid.executeAll ys = .ok final := by
  rw [executeAll_append] at h
  cases hxs : run.executeAll xs with
  | error e => rw [hxs] at h; cases h
  | ok mid => exact ⟨mid, rfl, by rwa [hxs] at h⟩

theorem executeAll_singleton (run : Run) (s : Statement) : run.executeAll [s] = run.execute s := by
  simp only [executeAll]
  cases run.execute s <;> rfl

/-- **The table of a run holds the definitions that reach its end.** -/
theorem get?_eq_some_iff_reaches (h : (start bars).executeAll statements = .ok run) :
    run.symbols.get? name = some v ↔ Reaches bars statements name v := by
  induction statements using List.reverseRecOn generalizing run v with
  | nil =>
      cases h
      show (SymbolTable.ofBars bars).get? name = some v ↔ _
      rw [get?_ofBars_eq_some_iff]
      constructor
      · rintro ⟨get, hmem, hv⟩
        exact .builtin get hmem (by simp) hv
      · intro hreach
        cases hreach with
        | assigned above below t expression run' split => simp at split
        | builtin get isBuiltin unassigned values => exact ⟨get, isBuiltin, values⟩
  | append_singleton before s ih =>
      obtain ⟨mid, hbefore, hstep⟩ := executeAll_append_eq_ok h
      rw [executeAll_singleton] at hstep
      cases ha : s.action with
      | plot plot =>
          simp only [execute, ha] at hstep
          cases hstep
          rw [symbols_draw, ih hbefore, reaches_snoc_of_ne (by simp [Statement.target?, ha])]
      | assign target expression =>
          cases hev : expression.evaluate mid.symbols with
          | error fault => simp [execute, ha, hev] at hstep
          | ok series =>
              simp only [execute, ha, hev] at hstep
              cases hstep
              show (mid.symbols.insert target series).get? name = some v ↔ _
              rw [SymbolTable.get?_insert]
              by_cases hname : target = name
              · subst hname
                rw [if_pos rfl, reaches_snoc_of_assign ha hbefore, hev]
                simp
              · rw [if_neg hname, ih hbefore,
                  reaches_snoc_of_ne (by simpa [Statement.target?, ha] using hname)]

/-! ### Plots -/

/-- The point at an index, if there is a bar and a finite value. -/
def pointAt? (bars : List Bar) (v : Series) (i : Nat) : Option PlotPoint := do
  let bar ← bars[i]?
  let value ← v[i]?
  if value.isFinite then some ⟨bar.time, value⟩ else none

/-- What a plot on a line has to show: its title and color, and at every bar the value of
the series that its name stands for behind the statements above the line. -/
structure Shows (bars : List Bar) (statements : List Statement) (drawn : Nat × PlotStatement)
    (result : PlotResult) : Prop where
  name : result.name = drawn.2.title
  color : result.color = drawn.2.color
  data : ∃ v, v.length = bars.length ∧
    (∀ w, Reaches bars (statements.filter fun t => t.line < drawn.1) drawn.2.series w ↔ w = v) ∧
    result.data = (List.range bars.length).filterMap (pointAt? bars v)

/-- A plot has a point at every index with a finite value, in the order of the indices. -/
theorem data_assemble (title color : String) (bars : List Bar) (v : Series) :
    (PlotResult.assemble title color bars v).data =
      (List.range bars.length).filterMap (pointAt? bars v) := by
  simp only [PlotResult.assemble]
  induction bars generalizing v with
  | nil => rfl
  | cons bar rest ih =>
      cases v with
      | nil =>
          have hnone : ∀ i ∈ List.range (bar :: rest).length,
              pointAt? (bar :: rest) [] i = none := by
            intro i _
            unfold pointAt?
            cases (bar :: rest)[i]? <;> rfl
          rw [List.filterMap_eq_nil_iff.mpr hnone]
          rfl
      | cons value more =>
          have hshift : (pointAt? (bar :: rest) (value :: more)) ∘ Nat.succ =
              pointAt? rest more := rfl
          rw [List.length_cons, List.range_succ_eq_map, List.filterMap_cons, List.filterMap_map,
            hshift, ← ih more, List.zip_cons_cons, List.filterMap_cons]
          rfl

/-- What every statement keeps, all of them keep. -/
theorem executeAll_keeps {P : Run → Prop} {later : Run} (h : P run)
    (hkeeps : ∀ s ∈ statements, ∀ mid next, P mid → mid.execute s = .ok next → P next)
    (hrun : run.executeAll statements = .ok later) : P later := by
  induction statements generalizing run with
  | nil =>
      cases hrun
      exact h
  | cons s rest ih =>
      simp only [executeAll] at hrun
      cases hstep : run.execute s with
      | error e => rw [hstep] at hrun; cases hrun
      | ok mid =>
          rw [hstep] at hrun
          have hmid : P mid := hkeeps s List.mem_cons_self run mid h hstep
          exact ih hmid (fun t ht => hkeeps t (List.mem_cons_of_mem s ht)) hrun

/-- The statements that are read off lines keep the invariant one after the other. -/
theorem executeAll_sound {later : Run} (h : Sound bars run)
    (hread : ∀ s ∈ statements, s.IsRead) (hrun : run.executeAll statements = .ok later) :
    Sound bars later := by
  refine executeAll_keeps h ?_ hrun
  intro s hs mid next hmid hstep
  exact execute_sound hmid (hread s hs) hstep

/-- Some statements keep every name and every plot. -/
theorem executeAll_extends {later : Run} (hrun : run.executeAll statements = .ok later) :
    Extends run later := by
  refine executeAll_keeps (Extends.refl run) ?_ hrun
  intro s _ mid next hmid hstep
  exact hmid.trans (execute_extends hstep)

variable {before after : List Statement}

/-- The statements above a line are those in front of it. -/
theorem filter_line_lt (hascend : (before ++ s :: after).Pairwise fun a b => a.line < b.line) :
    ((before ++ s :: after).filter fun t => t.line < s.line) = before := by
  obtain ⟨-, htail, hcross⟩ := List.pairwise_append.mp hascend
  have hfront : ∀ t ∈ before, decide (t.line < s.line) = true := by
    intro t ht
    exact decide_eq_true (hcross t ht s List.mem_cons_self)
  have hback : ∀ t ∈ s :: after, ¬decide (t.line < s.line) = true := by
    intro t ht
    rcases List.mem_cons.mp ht with rfl | hafter
    · simp
    · have hlt := (List.pairwise_cons.mp htail).1 t hafter
      simp only [decide_eq_true_eq]
      omega
  rw [List.filter_append, List.filter_eq_self.mpr hfront, List.filter_eq_nil_iff.mpr hback,
    List.append_nil]

/-- A name is bound in front of a line if the run has a series for it there. -/
theorem boundBefore_iff_contains
    (hascend : (before ++ s :: after).Pairwise fun a b => a.line < b.line)
    (h : (start bars).executeAll before = .ok run) :
    Script.BoundBefore (before ++ s :: after) s.line name ↔ run.symbols.contains name = true := by
  rw [contains_after_start h]
  unfold Script.BoundBefore
  simp only [← and_assoc, Script.mem_and_line_lt_iff hascend]

/-- Behind some statements, a plot adds the result that it has to show, or nothing if its
series is not bound. -/
theorem draw_shows {plot : PlotStatement} (hread : ∀ t ∈ before, t.IsRead)
    (hascend : (before ++ s :: after).Pairwise fun a b => a.line < b.line)
    (h : (start bars).executeAll before = .ok run) (ha : s.action = .plot plot) :
    ∃ new, (run.draw plot).results = run.results ++ new ∧
      List.Forall₂ (Shows bars (before ++ s :: after))
        ([s].filterMap (Script.plotted? (before ++ s :: after))) new := by
  have hbound : Script.BoundBefore (before ++ s :: after) s.line plot.series ↔
      run.symbols.contains plot.series = true := boundBefore_iff_contains hascend h
  have hsound : Sound bars run := executeAll_sound (start_sound bars) hread h
  cases hget : run.symbols.get? plot.series with
  | none =>
      rw [SymbolTable.contains, hget] at hbound
      have hnothing : [s].filterMap (Script.plotted? (before ++ s :: after)) = [] := by
        simp [Script.plotted?, ha, hbound]
      refine ⟨[], by simp [draw, hget], ?_⟩
      rw [hnothing]
      exact .nil
  | some v =>
      rw [SymbolTable.contains, hget] at hbound
      have hplotted : [s].filterMap (Script.plotted? (before ++ s :: after)) =
          [(s.line, plot)] := by
        simp [Script.plotted?, ha, hbound]
      refine ⟨[.assemble plot.title plot.color bars v], by simp [draw, hget, hsound.bars_eq], ?_⟩
      rw [hplotted]
      refine .cons ⟨rfl, rfl, v, ?_, ?_, data_assemble _ _ _ _⟩ .nil
      · rw [hsound.aligned _ _ hget, hsound.barCount]
      · intro w
        rw [filter_line_lt hascend, ← get?_eq_some_iff_reaches h, hget, Option.some.injEq, eq_comm]

/-- **The results behind some statements of a script are those that the plots among them
have to show.** -/
theorem results_show (hread : ∀ s ∈ before, s.IsRead)
    (hascend : (before ++ after).Pairwise fun a b => a.line < b.line)
    (h : (start bars).executeAll before = .ok run) :
    List.Forall₂ (Shows bars (before ++ after))
      (before.filterMap (Script.plotted? (before ++ after))) run.results := by
  induction before using List.reverseRecOn generalizing run after with
  | nil =>
      cases h
      exact .nil
  | append_singleton before s ih =>
      obtain ⟨mid, hbefore, hstep⟩ := executeAll_append_eq_ok h
      rw [executeAll_singleton] at hstep
      rw [List.append_assoc, List.singleton_append] at hascend ⊢
      have hreadBefore : ∀ t ∈ before, t.IsRead := fun t ht => hread t (by simp [ht])
      have hshown := ih hreadBefore hascend hbefore
      rw [List.filterMap_append]
      cases ha : s.action with
      | assign target expression =>
          cases hev : expression.evaluate mid.symbols with
          | error fault => simp [execute, ha, hev] at hstep
          | ok series =>
              simp only [execute, ha, hev] at hstep
              cases hstep
              simpa [Script.plotted?, ha, bind] using hshown
      | plot plot =>
          simp only [execute, ha] at hstep
          cases hstep
          obtain ⟨new, hnew, hshows⟩ := draw_shows hreadBefore hascend hbefore ha
          rw [hnew]
          exact List.rel_append hshown hshows

/-- What a script that can be read consists of has been read off its lines. -/
theorem isRead_of_parse_eq_ok {text : List Char} {script : Script}
    (h : Script.parse text = .ok script) : ∀ s ∈ script.statements, s.IsRead := by
  intro s hs
  rw [(Script.collect_eq_ok h).2, List.nil_append] at hs
  obtain ⟨item, hmem, hitem⟩ := List.mem_filterMap.mp hs
  unfold Script.statement? at hitem
  split at hitem
  · cases hitem
  · cases hitem
    exact ⟨text, hmem⟩
  · cases hitem

/-- The lines of what is plotted ascend. -/
theorem plotted_ascends (hascend : statements.Pairwise fun a b => a.line < b.line) :
    (Script.plotted statements).Pairwise fun a b => a.1 < b.1 := by
  have hline : ∀ s d, Script.plotted? statements s = some d → d.1 = s.line := by
    intro s d hd
    unfold Script.plotted? at hd
    split at hd
    · cases hd
    · split at hd
      · cases hd
        rfl
      · cases hd
  unfold Script.plotted
  rw [List.pairwise_filterMap]
  refine hascend.imp ?_
  intro s t hlt d hd e he
  rw [hline s d hd, hline t e he]
  exact hlt

/-- Only identifiers are ever bound. -/
theorem isIdentifier_of_boundBefore (hread : ∀ s ∈ statements, s.IsRead) {line : Nat}
    (h : Script.BoundBefore statements line name) : isIdentifier name.toList = true := by
  rcases h with hbuiltin | ⟨s, hmem, -, htarget⟩
  · exact SymbolTable.isIdentifier_of_builtin hbuiltin
  · unfold Statement.target? at htarget
    split at htarget
    · rename_i target expression ha
      cases htarget
      exact isIdentifier_of_isRead (hread s hmem) ha
    · cases htarget

/--
**Plots see the definitions that reach them.**  If a script gets through, its results are
those of its plot lines whose series is bound on the lines above, one for one and in the
order of the lines, and each shows the series that its name stands for there.  Only
identifiers are bound.  What is above a line has led to a state whose results stay, and
there a plot of anything that is not bound changes nothing.
-/
theorem plots_show_reaching_definitions (text : List Char) (bars : List Bar)
    (results : List PlotResult) (h : plots text bars = .ok results) :
    ∃ script, Script.parse text = .ok script ∧
      List.Forall₂ (Shows bars script.statements) (Script.plotted script.statements) results ∧
      (Script.plotted script.statements).Pairwise (fun a b => a.1 < b.1) ∧
      (∀ line name, Script.BoundBefore script.statements line name →
        isIdentifier name.toList = true) ∧
      ∀ above s below, script.statements = above ++ s :: below →
        ∃ run, (start bars).executeAll above = .ok run ∧ run.results <+: results ∧
          ∀ plot, s.action = .plot plot →
            ¬Script.BoundBefore script.statements s.line plot.series → run.execute s = .ok run := by
  cases hparse : Script.parse text with
  | error e =>
      obtain ⟨e', he', -⟩ := plots_of_parse_eq_error hparse bars
      cases h.symm.trans he'
  | ok script =>
      have hread := isRead_of_parse_eq_ok hparse
      have hascend : script.statements.Pairwise fun a b => a.line < b.line := by
        rw [(Script.collect_eq_ok hparse).2, List.nil_append]
        exact (Script.readLines_ascends text).statements
      rw [plots_of_parse_eq_ok hparse] at h
      cases hrun : (start bars).executeAll script.statements with
      | error e => rw [hrun] at h; cases h
      | ok final =>
          rw [hrun] at h
          cases h
          refine ⟨script, rfl, ?_, plotted_ascends hascend,
            fun line name => isIdentifier_of_boundBefore hread, ?_⟩
          · have hshown : List.Forall₂ (Shows bars (script.statements ++ []))
                (script.statements.filterMap (Script.plotted? (script.statements ++ [])))
                final.results := results_show hread (by simpa using hascend) hrun
            rwa [List.append_nil] at hshown
          · intro above s below hsplit
            rw [hsplit] at hrun hascend ⊢
            obtain ⟨run, habove, hbelow⟩ := executeAll_append_eq_ok hrun
            refine ⟨run, habove, (executeAll_extends hbelow).results, ?_⟩
            intro plot ha hunbound
            rw [boundBefore_iff_contains hascend habove] at hunbound
            have hget : run.symbols.get? plot.series = none := by
              simpa [SymbolTable.contains] using hunbound
            simp only [execute, ha, draw, hget]

/-- A plot above the assignment that it waits for shows nothing, and one between two
assignments shows the first, also when the second reads it. -/
theorem plots_show_assignment_above :
    let text := "plot(x)\nx = ta.sma(close, 1)\nplot(x, \"A\")\nx = ta.ema(x, 2)\nplot(x)\nplot(a b)"
    let bars : List Bar := [⟨60, 1.0, 2.0, 0.5, 1.5, 10.0⟩]
    let results : List PlotResult :=
      [⟨"A", "#2962FF", [⟨60, 1.5⟩]⟩, ⟨"Indicator", "#2962FF", [⟨60, 1.5⟩]⟩]
    plots text.toList bars = .ok results ∧
      ∃ script, Script.parse text.toList = .ok script ∧
        List.Forall₂ (Shows bars script.statements) (Script.plotted script.statements) results := by
  intro text bars results
  have hplots : plots text.toList bars = .ok results := by
    have hsome : (plots text.toList bars).toOption = some results := by decide +kernel
    cases hrun : plots text.toList bars with
    | error e => rw [hrun] at hsome; cases hsome
    | ok shown =>
        rw [hrun] at hsome
        exact congrArg Except.ok (Option.some.inj hsome)
  obtain ⟨script, hparse, hshow, -⟩ := plots_show_reaching_definitions _ _ _ hplots
  exact ⟨hplots, script, hparse, hshow⟩

end Run

end ChartScript
