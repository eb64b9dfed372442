/-
What holds in every state of a run.

A run is over a fixed list of bars.  Every series bound in it has one value for each of
them, the five built-in names are bound, and every bound name is an identifier: `Sound`
says this of a state.  It holds at the start, and a statement that a line is read as keeps
it, since every indicator and all arithmetic give a series as long as the ones they read.

Statements are executed here on a state that is changed in place, the way an interpreter
holds it that somebody goes on using after a failure.  What can be seen from outside of a
failing statement is then a property: it has changed nothing, neither a series nor a plot.
Two facts follow of every state that statements lead to.  The indicators that read the
built-in names never fail, and arithmetic at a bar misses no name but one that is not bound.
-/
import ChartScript.Proofs.Checks
import ChartScript.Proofs.Run.Steps
import ChartScript.Proofs.Script.Reading

namespace ChartScript

namespace SymbolTable

/-- Every bound series has one value for each bar. -/
def Aligned (table : SymbolTable) : Prop :=
  ∀ name series, table.get? name = some series → series.length = table.barCount

theorem length_read {table : SymbolTable} (h : table.Aligned) {name : String}
    (hbound : table.contains name = true) : (table.read name).length = table.barCount :=
  h name _ (get?_eq_read hbound)

theorem aligned_insert {table : SymbolTable} (h : table.Aligned) {name : String}
    {series : Series} (hlength : series.length = table.barCount) :
    (table.insert name series).Aligned := by
  intro other bound hget
  rw [get?_insert] at hget
  by_cases hname : name = other
  · rw [if_pos hname] at hget
    rw [← Option.some.inj hget]
    exact hlength
  · rw [if_neg hname] at hget
    exact h other bound hget

/-- The series of the bars have one value for each of them. -/
theorem aligned_ofBars (bars : List Bar) : (ofBars bars).Aligned := by
  intro name series hget
  obtain ⟨binding, hfind, rfl⟩ := Option.map_eq_some_iff.mp hget
  obtain ⟨⟨builtin, get⟩, -, rfl⟩ := List.mem_map.mp (List.mem_of_find?_eq_some hfind)
  exact List.length_map get

theorem isIdentifier_of_builtin {name : String} (h : name ∈ builtinNames) :
    isIdentifier name.toList = true := by
  have hall : ∀ n ∈ builtinNames, isIdentifier n.toList = true := by decide
  exact hall name h

end SymbolTable

/-! ### Every right-hand side is as long as the bars -/

/-- An indicator has as many values as each of its sources. -/
theorem Indicator.length_series {read : String → Series} {n : Nat} (call : Indicator)
    (h : ∀ name ∈ call.sources, (read name).length = n) : (call.series read).length = n := by
  cases call with
  | sma name _ | ema name _ | wma name _ | rsi name _ =>
      simpa [series] using h name (List.mem_singleton.mpr rfl)
  | macd name _ _ _ | bollinger name _ _ =>
      simpa [series] using h name (List.mem_singleton.mpr rfl)
  | atr _ | stoch _ _ =>
      have hhigh : (read "high").length = n := h "high" (by simp [sources])
      have hlow : (read "low").length = n := h "low" (by simp [sources])
      have hclose : (read "close").length = n := h "close" (by simp [sources])
      simp [series, hhigh, hlow, hclose]

/-- Every source of an indicator that does not fail is bound. -/
theorem Indicator.contains_of_unbound?_eq_none {bound : String → Bool} {call : Indicator}
    (h : call.unbound? bound = none) : ∀ name ∈ call.sources, bound name = true := by
  intro name hmem
  simpa using List.find?_eq_none.mp h name hmem

/-- **A right-hand side that has a series has a value for each bar.** -/
theorem Expression.length_of_evaluate {table : SymbolTable} (h : table.Aligned)
    {expression : Expression} {series : Series} (hev : expression.evaluate table = .ok series) :
    series.length = table.barCount := by
  rw [evaluate_eq] at hev
  cases hfault : expression.fault? table.contains with
  | some fault => rw [hfault] at hev; cases hev
  | none =>
      rw [hfault] at hev
      cases hev
      cases expression with
      | indicator call =>
          have hnone : call.unbound? table.contains = none := Option.map_eq_none_iff.mp hfault
          refine call.length_series fun name hmem => ?_
          exact SymbolTable.length_read h (Indicator.contains_of_unbound?_eq_none hnone name hmem)
      | arithmetic tree => exact tree.length_evaluate table
      | invalid text error => exact List.length_replicate

namespace Arithmetic

theorem finite_ne_unknownVariable (value : Float) (name : String) :
    finite value ≠ .error (.unknownVariable name) := by
  intro h
  unfold finite at h
  split at h <;> cases h

/-- An operation fails only by dividing by zero. -/
theorem apply_ne_unknownVariable (operation : Operation) (l r : Float) (name : String) :
    operation.apply l r ≠ .error (.unknownVariable name) := by
  intro h
  cases operation with
  | div =>
      simp only [Operation.apply] at h
      split at h <;> cases h
  | add | sub | mul => cases h

/-- At an index that every series reaches, arithmetic misses only names that are not
bound. -/
theorem not_contains_of_evalAt {table : SymbolTable} (h : table.Aligned) {index : Nat}
    (hindex : index < table.barCount) {tree : Arithmetic} {name : String}
    (hev : tree.evalAt table index = .error (.unknownVariable name)) :
    table.contains name = false := by
  induction tree with
  | number value => exact absurd hev (finite_ne_unknownVariable value name)
  | symbol read =>
      cases hget : table.get? read with
      | none =>
          simp only [evalAt, hget, Option.bind_none] at hev
          cases hev
          simp [SymbolTable.contains, hget]
      | some series =>
          have hlt : index < series.length := by
            rw [h read series hget]
            exact hindex
          simp only [evalAt, hget, Option.bind_some, List.getElem?_eq_getElem hlt] at hev
          exact absurd hev (finite_ne_unknownVariable _ name)
  | neg operand ih =>
      rcases bind_eq_error_iff.mp hev with hoperand | ⟨value, -, hvalue⟩
      · exact ih hoperand
      · exact absurd hvalue (finite_ne_unknownVariable _ name)
  | binary operation left right ihl ihr =>
      rcases bind_eq_error_iff.mp hev with hleft | ⟨l, -, hev⟩
      · exact ihl hleft
      rcases bind_eq_error_iff.mp hev with hright | ⟨r, -, hev⟩
      · exact ihr hright
      rcases bind_eq_error_iff.mp hev with hoperation | ⟨value, -, hvalue⟩
      · exact absurd hoperation (apply_ne_unknownVariable operation l r name)
      · exact absurd hvalue (finite_ne_unknownVariable value name)

end Arithmetic

/-! ### Statements in place -/

/-- A statement that some line of a script is read as. -/
def Statement.IsRead (s : Statement) : Prop :=
  ∃ script, .ok (.statement s) ∈ Script.readLines script

namespace Run

/-- Execute a statement on a state that is changed in place.  Whether it fails or not, the
state holds what has been written to it by then. -/
def perform (s : Statement) : ExceptT ScriptError (StateM Run) Unit :=
  match s.action with
  | .assign target expression => do
      let run ← get
      match expression.evaluate run.symbols with
      | .ok series => set (run.bind target series)
      | .error fault => throw ⟨s.line, fault⟩
  | .plot plot => modify fun run => run.draw plot

/-- What a statement comes to in a state, and the state that it leaves behind. -/
def attempt (run : Run) (s : Statement) : Except ScriptError Unit × Run :=
  (perform s).run.run run

/-- The states that statements which lines are read as lead to, one after the other and
whatever comes of each. -/
inductive Leads (run : Run) : Run → Prop
  | here : Leads run run
  | attempt {mid : Run} (h : Leads run mid) {s : Statement} (hs : s.IsRead) :
      Leads run (mid.attempt s).2

/-- **Executing in place agrees with executing, and leaves no trace of a failure.** -/
theorem attempt_eq (run : Run) (s : Statement) :
    run.attempt s =
      match run.execute s with
      | .ok next => (.ok (), next)
      | .error e => (.error e, run) := by
  obtain ⟨line, action⟩ := s
  cases action with
  | plot plot => rfl
  | assign target expression =>
      have hread : run.attempt ⟨line, .assign target expression⟩ =
          (match expression.evaluate run.symbols with
            | .ok series => set (run.bind target series)
            | .error fault => throw ⟨line, fault⟩ :
              ExceptT ScriptError (StateM Run) Unit).run.run run := rfl
      rw [hread]
      simp only [execute]
      cases expression.evaluate run.symbols <;> rfl

/-! ### The invariant -/

/-- What holds in every state of a run over some bars. -/
structure Sound (bars : List Bar) (run : Run) : Prop where
  bars_eq : run.bars = bars
  barCount : run.symbols.barCount = bars.length
  /-- Every bound series has one value for each bar. -/
  aligned : run.symbols.Aligned
  builtins : ∀ name ∈ SymbolTable.builtinNames, run.symbols.contains name = true
  identifiers : ∀ name, run.symbols.contains name = true → isIdentifier name.toList = true

/-- A state that has come out of another one: no name is lost, and the plots are still
there in front of the new ones. -/
structure Extends (run later : Run) : Prop where
  names : ∀ name, run.symbols.contains name = true → later.symbols.contains name = true
  results : run.results <+: later.results

variable {bars : List Bar} {run later : Run} {s : Statement}

theorem start_sound (bars : List Bar) : Sound bars (start bars) := by
  refine ⟨rfl, rfl, SymbolTable.aligned_ofBars bars, ?_, ?_⟩
  · intro name hname
    show (SymbolTable.ofBars bars).contains name = true
    rw [SymbolTable.contains_ofBars]
    exact List.contains_iff_mem.mpr hname
  · intro name hname
    rw [show (start bars).symbols = SymbolTable.ofBars bars from rfl,
      SymbolTable.contains_ofBars] at hname
    exact SymbolTable.isIdentifier_of_builtin (List.contains_iff_mem.mp hname)

/-- A statement that has been read assigns to an identifier, if it assigns. -/
theorem isIdentifier_of_isRead (hs : s.IsRead) {target : String} {expression : Expression}
    (ha : s.action = .assign target expression) : isIdentifier target.toList = true := by
  obtain ⟨script, hmem⟩ := hs
  obtain ⟨⟨number, raw⟩, -, hline⟩ := List.mem_filterMap.mp hmem
  unfold Script.readLine? at hline
  split at hline
  · cases hline
  · rename_i line hparse
    cases hline
    exact Line.isIdentifier_of_parse_eq_statement hparse ha
  · cases hline

/-- A statement keeps the invariant if it does not fail. -/
theorem execute_sound (h : Sound bars run) (hs : s.IsRead)
    (hstep : run.execute s = .ok later) : Sound bars later := by
  cases ha : s.action with
  | plot plot =>
      simp only [execute, ha] at hstep
      cases hstep
      exact ⟨(bars_draw run plot).trans h.bars_eq, by rw [symbols_draw]; exact h.barCount,
        by rw [symbols_draw]; exact h.aligned, by rw [symbols_draw]; exact h.builtins,
        by rw [symbols_draw]; exact h.identifiers⟩
  | assign target expression =>
      cases hev : expression.evaluate run.symbols with
      | error fault => simp [execute, ha, hev] at hstep
      | ok series =>
          simp only [execute, ha, hev] at hstep
          cases hstep
          have hlength := Expression.length_of_evaluate h.aligned hev
          refine ⟨h.bars_eq, h.barCount, SymbolTable.aligned_insert h.aligned hlength, ?_, ?_⟩
          · intro name hname
            show (run.symbols.insert target series).contains name = true
            rw [SymbolTable.contains_insert, h.builtins name hname, Bool.or_true]
          · intro name hname
            replace hname : (run.symbols.insert target series).contains name = true := hname
            rw [SymbolTable.contains_insert] at hname
            rcases Bool.or_eq_true_iff.mp hname with htarget | hold
            · rw [← beq_iff_eq.mp htarget]
              exact isIdentifier_of_isRead hs ha
            · exact h.identifiers name hold

/-- A statement keeps every name and every plot. -/
theorem execute_extends (hstep : run.execute s = .ok later) : Extends run later := by
  obtain ⟨-, rfl⟩ := (execute_eq_ok_iff run later s).mp hstep
  refine ⟨?_, ?_⟩
  · intro name hname
    rw [contains_after, hname, Bool.or_true]
  · cases ha : s.action with
    | assign target expression =>
        simp only [after, ha]
        exact List.prefix_rfl
    | plot plot =>
        simp only [after, ha]
        unfold draw
        split
        · exact List.prefix_rfl
        · exact List.prefix_append _ _

theorem Extends.refl (run : Run) : Extends run run :=
  ⟨fun _ h => h, List.prefix_rfl⟩

theorem Extends.trans {mid : Run} (h : Extends run mid) (h' : Extends mid later) :
    Extends run later :=
  ⟨fun name hname => h'.names name (h.names name hname), h.results.trans h'.results⟩

/-- An attempt leads to where the statement does, or nowhere. -/
theorem attempt_cases (run : Run) (s : Statement) :
    run.execute s = .ok (run.attempt s).2 ∧ (run.attempt s).1 = .ok () ∨
      ∃ e, run.execute s = .error e ∧ run.attempt s = (.error e, run) := by
  rw [attempt_eq]
  cases hstep : run.execute s with
  | ok next => exact Or.inl ⟨rfl, rfl⟩
  | error e => exact Or.inr ⟨e, rfl, rfl⟩

theorem attempt_sound (h : Sound bars run) (hs : s.IsRead) : Sound bars (run.attempt s).2 := by
  rcases attempt_cases run s with ⟨hstep, -⟩ | ⟨e, -, hsame⟩
  · exact execute_sound h hs hstep
  · rw [hsame]
    exact h

theorem attempt_extends (run : Run) (s : Statement) : Extends run (run.attempt s).2 := by
  rcases attempt_cases run s with ⟨hstep, -⟩ | ⟨e, -, hsame⟩
  · exact execute_extends hstep
  · rw [hsame]
    exact Extends.refl run

theorem Leads.sound (h : Leads run later) (hrun : Sound bars run) : Sound bars later := by
  induction h with
  | here => exact hrun
  | attempt h hs ih => exact attempt_sound ih hs

theorem Leads.extends (h : Leads run later) : Extends run later := by
  induction h with
  | here => exact Extends.refl run
  | @attempt mid h s hs ih => exact ih.trans (attempt_extends mid s)

/-- An indicator that reads only built-in names does not fail. -/
theorem Sound.compute_eq_ok (h : Sound bars run) {call : Indicator}
    (hsources : ∀ name ∈ call.sources, name ∈ SymbolTable.builtinNames) :
    ∃ series, call.compute run.symbols = .ok series := by
  rw [Indicator.compute_eq]
  cases hunbound : call.unbound? run.symbols.contains with
  | none => exact ⟨_, rfl⟩
  | some name =>
      obtain ⟨hmem, hname⟩ := (Indicator.unbound?_eq_some_iff h.builtins).mp hunbound
      rw [h.builtins name (hsources name hmem)] at hname
      cases hname

/--
**The invariant of runs.**  Take any state that statements lead to which lines have been
read as, executed in place over some bars, whatever came of each.  Every series there has a
value for each bar, the built-in names are bound, and every bound name is an identifier.
Statements that follow lose no name and change no plot, and one that fails leaves the state
as it was; what is bound next has a value for each bar as well.  So the indicators that read
the built-in names cannot fail, and arithmetic at a bar misses no name but one that is not
bound.
-/
theorem leads_invariant (bars : List Bar) (run : Run) (h : Leads (start bars) run) :
    Sound bars run ∧
    (∀ later, Leads run later → Extends run later) ∧
    (∀ s e, (run.attempt s).1 = .error e → (run.attempt s).2 = run) ∧
    (∀ (expression : Expression) series, expression.evaluate run.symbols = .ok series →
      series.length = run.symbols.barCount) ∧
    (∀ length, ∃ series, (Indicator.atr length).compute run.symbols = .ok series) ∧
    (∀ kLength dLength, ∃ series,
      (Indicator.stoch kLength dLength).compute run.symbols = .ok series) ∧
    ∀ (tree : Arithmetic) index name, index < bars.length →
      tree.evalAt run.symbols index = .error (.unknownVariable name) →
        run.symbols.contains name = false := by
  have hsound : Sound bars run := h.sound (start_sound bars)
  have hbuiltin : ∀ name ∈ ["high", "low", "close"], name ∈ SymbolTable.builtinNames := by decide
  refine ⟨hsound, fun later hlater => hlater.extends, ?_, ?_, ?_, ?_, ?_⟩
  · intro s e he
    rcases attempt_cases run s with ⟨-, hok⟩ | ⟨e', -, hsame⟩
    · rw [hok] at he
      cases he
    · rw [hsame]
  · intro expression series hev
    exact Expression.length_of_evaluate hsound.aligned hev
  · exact fun length => hsound.compute_eq_ok hbuiltin
  · exact fun kLength dLength => hsound.compute_eq_ok hbuiltin
  · intro tree index name hindex hev
    exact Arithmetic.not_contains_of_evalAt hsound.aligned (hsound.barCount ▸ hindex) hev

/-- Behind an assignment that fails for want of a source, and one that does not, the
invariant holds, and failing again changes nothing. -/
theorem leads_invariant_behind_failure :
    let bars : List Bar := [⟨60, 1.0, 2.0, 0.5, 1.5, 10.0⟩]
    let failing : Statement := ⟨1, .assign "b" (.indicator (.sma "missing" 3))⟩
    let range : Statement := ⟨2, .assign "a" (.indicator (.atr 14))⟩
    let run := (((start bars).attempt failing).2.attempt range).2
    Leads (start bars) run ∧ Sound bars run ∧ (run.attempt failing).2 = run := by
  intro bars failing range run
  have hlines : Script.readLines "b = ta.sma(missing, 3)\na = ta.atr()".toList =
      [.ok (.statement failing), .ok (.statement range)] := rfl
  have hfailing : failing.IsRead := ⟨_, hlines ▸ List.mem_cons_self⟩
  have hrange : range.IsRead := ⟨_, hlines ▸ List.mem_cons_of_mem _ List.mem_cons_self⟩
  have hleads : Leads (start bars) run := (Leads.here.attempt hfailing).attempt hrange
  obtain ⟨hsound, -, hfailure, -⟩ := leads_invariant bars run hleads
  exact ⟨hleads, hsound, hfailure failing ⟨1, .undefinedVariable "missing" (.sma "missing" 3)⟩ rfl⟩

end Run

end ChartScript
