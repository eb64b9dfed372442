/-
Running a script line by line agrees with reading it as a whole first.

Both look at the same lines in the same order.  The run executes each line before it reads
the next, so where reading alone stops at the first faulty line, the run may stop earlier,
at a statement that cannot be executed.  The only such statement is an indicator with a
source that is not bound, and which names are bound in front of a line can be told from
the script: the built-in ones, and the targets of the assignments on earlier lines.
-/
import ChartScript.Proofs.Run.Steps
import ChartScript.Proofs.Script.Reading

namespace ChartScript

namespace Script

/-- A name is bound in front of a line if it is built in or an earlier line assigns it. -/
def BoundBefore (statements : List Statement) (line : Nat) (name : String) : Prop :=
  name ∈ SymbolTable.builtinNames ∨ ∃ s ∈ statements, s.line < line ∧ s.target? = some name

/-- `e` reports that a statement is an indicator with a source that is not bound in front
of its line. -/
def Unsupplied (statements : List Statement) (s : Statement) (e : ScriptError) : Prop :=
  ∃ target call name, s.action = .assign target (.indicator call) ∧ name ∈ call.sources ∧
    ¬BoundBefore statements s.line name ∧ e = ⟨s.line, .undefinedVariable name call⟩

/-- `e` reports the first statement, by line, with a source that is not bound. -/
def FirstUnsupplied (statements : List Statement) (e : ScriptError) : Prop :=
  ∃ s ∈ statements, Unsupplied statements s e ∧
    ∀ t ∈ statements, t.line < s.line → ∀ e', ¬Unsupplied statements t e'

end Script

namespace Statement

/-- A statement fails if it is an indicator with a source that is not bound. -/
theorem error?_eq_some_iff {bound : String → Bool} (s : Statement) (e : ScriptError)
    (hbuiltin : ∀ name ∈ SymbolTable.builtinNames, bound name = true) :
    s.error? bound = some e ↔
      ∃ target call name, s.action = .assign target (.indicator call) ∧ name ∈ call.sources ∧
        bound name = false ∧ e = ⟨s.line, .undefinedVariable name call⟩ := by
  constructor
  · intro h
    unfold error? at h
    split at h
    · rename_i target expression ha
      obtain ⟨fault, hfault, rfl⟩ := Option.map_eq_some_iff.mp h
      cases expression with
      | indicator call =>
          obtain ⟨name, hname, rfl⟩ := Option.map_eq_some_iff.mp hfault
          obtain ⟨hmem, hbound⟩ := (Indicator.unbound?_eq_some_iff hbuiltin).mp hname
          exact ⟨target, call, name, ha, hmem, hbound, rfl⟩
      | arithmetic tree => cases hfault
      | invalid text error => cases hfault
    · cases h
  · rintro ⟨target, call, name, ha, hmem, hbound, rfl⟩
    have hname := (Indicator.unbound?_eq_some_iff hbuiltin).mpr ⟨hmem, hbound⟩
    simp [error?, ha, Expression.fault?, hname]

end Statement

namespace Run

/-! ### Which statement of a script fails -/

/-- The names bound behind some statements of a script. -/
theorem contains_after_start {bars : List Bar} {statements : List Statement} {next : Run}
    (h : (start bars).executeAll statements = .ok next) (name : String) :
    next.symbols.contains name = true ↔
      name ∈ SymbolTable.builtinNames ∨ ∃ s ∈ statements, s.target? = some name := by
  rw [contains_executeAll h]
  show (SymbolTable.ofBars bars).contains name = true ∨ _ ↔ _
  rw [SymbolTable.contains_ofBars, List.contains_iff_mem]

/-- In a script whose lines ascend, a statement fails behind those in front of it exactly
if it has a source that is not bound. -/
theorem execute_eq_error_iff_unsupplied {bars : List Bar} {before after : List Statement}
    {s : Statement} {next : Run}
    (hascend : (before ++ s :: after).Pairwise fun a b => a.line < b.line)
    (h : (start bars).executeAll before = .ok next) (e : ScriptError) :
    next.execute s = .error e ↔ Script.Unsupplied (before ++ s :: after) s e := by
  have hbuiltin : ∀ name ∈ SymbolTable.builtinNames, next.symbols.contains name = true :=
    fun name hname => (contains_after_start h name).mpr (Or.inl hname)
  have hbound : ∀ name, next.symbols.contains name = false ↔
      ¬Script.BoundBefore (before ++ s :: after) s.line name := by
    intro name
    rw [← Bool.not_eq_true, contains_after_start h]
    unfold Script.BoundBefore
    simp only [← and_assoc, Script.mem_and_line_lt_iff hascend]
  rw [execute_eq_error_iff, Statement.error?_eq_some_iff s e hbuiltin]
  simp only [hbound]
  rfl

/-- Executing the statements of a script fails at the first with a source that is not
bound, and only then. -/
theorem executeAll_start_eq_error_iff (bars : List Bar) {statements : List Statement}
    (hascend : statements.Pairwise fun a b => a.line < b.line) (e : ScriptError) :
    (start bars).executeAll statements = .error e ↔ Script.FirstUnsupplied statements e := by
  constructor
  · intro h
    obtain ⟨before, s, after, next, rfl, hbefore, hs⟩ := (executeAll_eq_error_iff _ _ _).mp h
    have hunsupplied := (execute_eq_error_iff_unsupplied hascend hbefore e).mp hs
    refine ⟨s, by simp, hunsupplied, ?_⟩
    intro t ht hlt e' ht'
    -- A statement on an earlier line has been executed, so it did not fail.
    have hmem : t ∈ before := (Script.mem_and_line_lt_iff hascend t).mp ⟨ht, hlt⟩
    obtain ⟨front, back, rfl⟩ := List.append_of_mem hmem
    cases hfront : (start bars).executeAll front with
    | error e'' => simp [executeAll_append, hfront] at hbefore
    | ok mid =>
        simp only [List.append_assoc, List.cons_append] at hascend ht'
        have hfail := (execute_eq_error_iff_unsupplied hascend hfront e').mpr ht'
        simp [executeAll_append, hfront, executeAll, hfail] at hbefore
  · rintro ⟨s, hmem, hunsupplied, hfirst⟩
    obtain ⟨before, after, rfl⟩ := List.append_of_mem hmem
    cases hbefore : (start bars).executeAll before with
    | ok next =>
        have hs := (execute_eq_error_iff_unsupplied hascend hbefore e).mpr hunsupplied
        simp [executeAll_append, hbefore, executeAll, hs]
    | error e' =>
        exfalso
        obtain ⟨front, t, back, next, rfl, hfront, ht⟩ :=
          (executeAll_eq_error_iff _ _ _).mp hbefore
        have hlt : t.line < s.line :=
          (List.pairwise_append.mp hascend).2.2 t (by simp) s List.mem_cons_self
        simp only [List.append_assoc, List.cons_append] at hascend hfirst
        exact hfirst t (by simp) hlt e'
          ((execute_eq_error_iff_unsupplied hascend hfront e').mp ht)

/-! ### Which line of a script fails -/

/-- A line fails in a state if it is faulty or its statement fails there. -/
def FailsOn (run : Run) (number : Nat) (raw : List Char) (e : ScriptError) : Prop :=
  Line.parse number raw = .error e ∨
    ∃ line, Line.parse number raw = .ok (some line) ∧ run.take line = .error e

/-- The error of a failing line carries the number of the line. -/
theorem FailsOn.line_eq {run : Run} {number : Nat} {raw : List Char} {e : ScriptError}
    (h : run.FailsOn number raw e) : e.line = number := by
  rcases h with hparse | ⟨line, hparse, htake⟩
  · exact Line.line_of_parse_eq_error hparse
  · cases line with
    | declaration title => cases htake
    | statement s =>
        rw [← Line.line_of_parse_eq_statement hparse]
        exact Statement.line_of_error? ((execute_eq_error_iff run s e).mp htake)

/-- Without faulty lines, taking lines is executing the statements among them. -/
theorem takeAll_of_faultless (run : Run) {lines : List (Except ScriptError Line)}
    (h : Script.Faultless lines) :
    run.takeAll lines = run.executeAll (lines.filterMap Script.statement?) := by
  induction lines generalizing run with
  | nil => rfl
  | cons item rest ih =>
      have hrest : Script.Faultless rest := fun e he => h e (List.mem_cons_of_mem _ he)
      rcases item with e | (title | s)
      · exact absurd List.mem_cons_self (h e)
      · exact ih run hrest
      · show run.takeAll (.ok (.statement s) :: rest) =
          run.executeAll (s :: rest.filterMap Script.statement?)
        simp only [takeAll, take, executeAll]
        cases run.execute s with
        | ok next => exact ih next hrest
        | error e => rfl

theorem takeAll_filterMap_cons (run : Run) (line : Nat × List Char)
    (rest : List (Nat × List Char)) :
    run.takeAll ((line :: rest).filterMap Script.readLine?) =
      match run.takeAll (Script.readLine? line).toList with
      | .ok next => next.takeAll (rest.filterMap Script.readLine?)
      | .error e => .error e := by
  have hline : (line :: rest).filterMap Script.readLine? =
      (Script.readLine? line).toList ++ rest.filterMap Script.readLine? := by
    rw [List.filterMap_cons]
    cases Script.readLine? line <;> rfl
  rw [hline]
  exact takeAll_append run _ _

/-- What a line of the script leads to. -/
theorem takeAll_readLine? (run : Run) (number : Nat) (raw : List Char) :
    run.takeAll (Script.readLine? (number, raw)).toList =
      match Line.parse number raw with
      | .ok none => .ok run
      | .ok (some line) => run.take line
      | .error e => .error e := by
  unfold Script.readLine?
  cases Line.parse number raw with
  | error e => rfl
  | ok line? =>
      cases line? with
      | none => rfl
      | some line =>
          simp only [Option.toList_some, takeAll]
          cases run.take line <;> rfl

theorem failsOn_iff {run : Run} {number : Nat} {raw : List Char} {e : ScriptError} :
    run.FailsOn number raw e ↔
      run.takeAll (Script.readLine? (number, raw)).toList = .error e := by
  rw [takeAll_readLine?]
  unfold FailsOn
  cases Line.parse number raw with
  | error found => simp
  | ok line? => cases line? <;> simp

/-- A run over numbered lines fails at the first line that fails in the state in front of
it. -/
theorem takeAll_readLine?_eq_error_iff (run : Run) (numbered : List (Nat × List Char))
    (e : ScriptError) :
    run.takeAll (numbered.filterMap Script.readLine?) = .error e ↔
      ∃ before raw after next, numbered = before ++ (e.line, raw) :: after ∧
        run.takeAll (before.filterMap Script.readLine?) = .ok next ∧
        next.FailsOn e.line raw e := by
  constructor
  · induction numbered generalizing run with
    | nil => intro h; cases h
    | cons head rest ih =>
        obtain ⟨number, raw⟩ := head
        intro h
        rw [takeAll_filterMap_cons] at h
        -- Either this line fails here, or the run goes on behind it.
        cases hline : run.takeAll (Script.readLine? (number, raw)).toList with
        | error found =>
            rw [hline] at h
            cases h
            have hfail := failsOn_iff.mpr hline
            obtain rfl := hfail.line_eq
            exact ⟨[], raw, rest, run, rfl, rfl, hfail⟩
        | ok mid =>
            rw [hline] at h
            obtain ⟨before, raw', after, next, rfl, hbefore, hfail⟩ := ih mid h
            refine ⟨(number, raw) :: before, raw', after, next, rfl, ?_, hfail⟩
            rw [takeAll_filterMap_cons, hline]
            exact hbefore
  · rintro ⟨before, raw, after, next, rfl, hbefore, hfail⟩
    rw [List.filterMap_append, takeAll_append, hbefore]
    simp only [takeAll_filterMap_cons, failsOn_iff.mp hfail]

/-! ### The two ways of reading -/

theorem plots_eq_map (text : List Char) (bars : List Bar) :
    plots text bars = ((start bars).takeAll (Script.readLines text)).map results := by
  unfold plots
  cases (start bars).takeAll (Script.readLines text) <;> rfl

/-- A script that can be read runs as its statements do. -/
theorem plots_of_parse_eq_ok {text : List Char} {script : Script}
    (h : Script.parse text = .ok script) (bars : List Bar) :
    plots text bars = ((start bars).executeAll script.statements).map results := by
  obtain ⟨hfault, hstatements⟩ := Script.collect_eq_ok h
  rw [plots_eq_map, takeAll_of_faultless _ hfault, hstatements]
  rfl

theorem plots_eq_error_iff_of_parse_eq_ok {text : List Char} {script : Script}
    (h : Script.parse text = .ok script) (bars : List Bar) (e : ScriptError) :
    plots text bars = .error e ↔ Script.FirstUnsupplied script.statements e := by
  have hascend : script.statements.Pairwise fun a b => a.line < b.line := by
    rw [(Script.collect_eq_ok h).2]
    exact (Script.readLines_ascends text).statements
  rw [plots_of_parse_eq_ok h, ← executeAll_start_eq_error_iff bars hascend]
  cases (start bars).executeAll script.statements with
  | ok run => simp [Except.map]
  | error e' => simp [Except.map]

/-- A script that cannot be read fails with its first fault, or above it with a source
that is not bound. -/
theorem plots_of_parse_eq_error {text : List Char} {e : ScriptError}
    (h : Script.parse text = .error e) (bars : List Bar) :
    ∃ e', plots text bars = .error e' ∧
      (e' = e ∨ e'.line < e.line ∧ ∃ name call, e'.fault = .undefinedVariable name call) := by
  obtain ⟨before, after, hlines, hfault⟩ := Script.collect_eq_error h
  have hascends := Script.readLines_ascends text
  rw [hlines] at hascends
  rw [plots_eq_map, hlines, takeAll_append, takeAll_of_faultless _ hfault]
  cases hrun : (start bars).executeAll (before.filterMap Script.statement?) with
  | ok next => exact ⟨e, rfl, Or.inl rfl⟩
  | error e' =>
      have hbefore : Script.Ascends before := (List.pairwise_append.mp hascends).1
      obtain ⟨s, hs, ⟨_, call, name, _, _, _, rfl⟩, -⟩ :=
        (executeAll_start_eq_error_iff bars hbefore.statements e').mp hrun
      exact ⟨_, rfl, Or.inr ⟨hascends.line_lt_of_fault hs, name, call, rfl⟩⟩

/--
**Running line by line agrees with reading the whole script first.**  A script that can be
read runs as its statements do one after another, and fails exactly at the first statement
with a source that is not bound.  A script that cannot be read fails with its first fault,
unless a statement above that fails for want of a source.  So only scripts that can be read
succeed, and the error of a run is that of the first line that fails.
-/
theorem plots_agrees_with_parse (text : List Char) (bars : List Bar) :
    (∀ script, Script.parse text = .ok script →
      plots text bars = ((start bars).executeAll script.statements).map results ∧
        ∀ e, plots text bars = .error e ↔ Script.FirstUnsupplied script.statements e) ∧
    (∀ e, Script.parse text = .error e →
      ∃ e', plots text bars = .error e' ∧
        (e' = e ∨ e'.line < e.line ∧ ∃ name call, e'.fault = .undefinedVariable name call)) ∧
    (∀ results, plots text bars = .ok results → ∃ script, Script.parse text = .ok script) ∧
    ∀ e, plots text bars = .error e ↔
      ∃ before raw after run, Script.numbered text = before ++ (e.line, raw) :: after ∧
        (start bars).takeAll (before.filterMap Script.readLine?) = .ok run ∧
        run.FailsOn e.line raw e := by
  refine ⟨fun script h => ⟨plots_of_parse_eq_ok h bars, plots_eq_error_iff_of_parse_eq_ok h bars⟩,
    fun e h => plots_of_parse_eq_error h bars, ?_, ?_⟩
  · intro results hplots
    cases hparse : Script.parse text with
    | ok script => exact ⟨script, rfl⟩
    | error e =>
        obtain ⟨e', he', -⟩ := plots_of_parse_eq_error hparse bars
        cases hplots.symm.trans he'
  · intro e
    rw [← takeAll_readLine?_eq_error_iff, plots_eq_map]
    show ((start bars).takeAll (Script.readLines text)).map results = .error e ↔
      (start bars).takeAll (Script.readLines text) = .error e
    cases (start bars).takeAll (Script.readLines text) with
    | ok run => simp [Except.map]
    | error e' => simp [Except.map]

end Run

end ChartScript
