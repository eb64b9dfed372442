/-
What the steps of a run can do, and what follows for whole runs.

A statement fails exactly when its right-hand side does, so `error?` tells from the names
that are bound whether and how it fails, and `after` is the state behind it if it does not;
`execute_eq` puts the two together.  A run fails at the first line that is faulty or whose
statement fails, in the state that the lines above it have led to.

Statements about two runs are proved in lockstep: if every statement either fails alike in
two related states or leads to related states again, then so does every list of lines.
-/
import ChartScript.Proofs.Evaluation
import ChartScript.Run.Basic

namespace ChartScript

namespace Statement

/-- The name that a statement binds, if it binds one. -/
def target? (s : Statement) : Option String :=
  match s.action with
  | .assign target _ => some target
  | .plot _ => none

/-- How executing a statement fails, if it does, where `bound` tests names. -/
def error? (bound : String → Bool) (s : Statement) : Option ScriptError :=
  match s.action with
  | .assign _ expression => (expression.fault? bound).map fun fault => ⟨s.line, fault⟩
  | .plot _ => none

/-- The error of a statement carries its line. -/
theorem line_of_error? {bound : String → Bool} {s : Statement} {e : ScriptError}
    (h : s.error? bound = some e) : e.line = s.line := by
  unfold error? at h
  split at h
  · obtain ⟨fault, -, rfl⟩ := Option.map_eq_some_iff.mp h
    rfl
  · cases h

end Statement

namespace Run

/-! ### One statement -/

/-- The state behind a statement that does not fail. -/
def after (run : Run) (s : Statement) : Run :=
  match s.action with
  | .assign target expression => run.bind target (expression.series run.symbols)
  | .plot plot => run.draw plot

/-- **A statement fails exactly as the names bound so far tell.** -/
theorem execute_eq (run : Run) (s : Statement) :
    run.execute s =
      match s.error? run.symbols.contains with
      | some e => .error e
      | none => .ok (run.after s) := by
  unfold execute Statement.error? after
  cases s.action with
  | assign target expression =>
      simp only [Expression.evaluate_eq]
      cases expression.fault? run.symbols.contains <;> rfl
  | plot plot => rfl

theorem execute_eq_error_iff (run : Run) (s : Statement) (e : ScriptError) :
    run.execute s = .error e ↔ s.error? run.symbols.contains = some e := by
  rw [execute_eq]
  cases s.error? run.symbols.contains <;> simp

theorem execute_eq_ok_iff (run next : Run) (s : Statement) :
    run.execute s = .ok next ↔ s.error? run.symbols.contains = none ∧ run.after s = next := by
  rw [execute_eq]
  cases s.error? run.symbols.contains <;> simp

@[simp] theorem bars_draw (run : Run) (plot : PlotStatement) : (run.draw plot).bars = run.bars := by
  unfold draw
  split <;> rfl

/-- Drawing leaves the symbol table as it is. -/
@[simp] theorem symbols_draw (run : Run) (plot : PlotStatement) :
    (run.draw plot).symbols = run.symbols := by
  unfold draw
  split <;> rfl

/-- A statement leaves the bars as they are. -/
@[simp] theorem bars_after (run : Run) (s : Statement) : (run.after s).bars = run.bars := by
  unfold after
  split
  · rfl
  · exact bars_draw run _

/-- A statement adds its target to the bound names, and no other name. -/
theorem contains_after (run : Run) (s : Statement) (name : String) :
    (run.after s).symbols.contains name = (s.target? == some name || run.symbols.contains name) := by
  unfold after Statement.target?
  split
  · simp [bind, SymbolTable.contains_insert]
  · simp

/-! ### Lists of statements and of lines -/

theorem executeAll_append (run : Run) (xs ys : List Statement) :
    run.executeAll (xs ++ ys) =
      match run.executeAll xs with
      | .ok next => next.executeAll ys
      | .error e => .error e := by
  induction xs generalizing run with
  | nil => rfl
  | cons s rest ih =>
      simp only [List.cons_append, executeAll]
      cases run.execute s with
      | ok next => exact ih next
      | error e => rfl

theorem takeAll_append (run : Run) (xs ys : List (Except ScriptError Line)) :
    run.takeAll (xs ++ ys) =
      match run.takeAll xs with
      | .ok next => next.takeAll ys
      | .error e => .error e := by
  induction xs generalizing run with
  | nil => rfl
  | cons item rest ih =>
      cases item with
      | error e => rfl
      | ok line =>
          simp only [List.cons_append, takeAll]
          cases run.take line with
          | ok next => exact ih next
          | error e => rfl

/-- A list of statements fails at the first that does. -/
theorem executeAll_eq_error_iff (run : Run) (statements : List Statement) (e : ScriptError) :
    run.executeAll statements = .error e ↔
      ∃ before s after next, statements = before ++ s :: after ∧
        run.executeAll before = .ok next ∧ next.execute s = .error e := by
  constructor
  · induction statements generalizing run with
    | nil => intro h; cases h
    | cons s rest ih =>
        intro h
        simp only [executeAll] at h
        cases hx : run.execute s with
        | error e' =>
            rw [hx] at h
            exact ⟨[], s, rest, run, rfl, rfl, hx.trans h⟩
        | ok mid =>
            rw [hx] at h
            obtain ⟨before, t, after, next, rfl, hbefore, ht⟩ := ih mid h
            exact ⟨s :: before, t, after, next, rfl, by simp [executeAll, hx, hbefore], ht⟩
  · rintro ⟨before, s, after, next, rfl, hbefore, hs⟩
    simp [executeAll_append, hbefore, executeAll, hs]

/-- The names bound behind some statements are those bound in front of them and their
targets. -/
theorem contains_executeAll {run next : Run} {statements : List Statement}
    (h : run.executeAll statements = .ok next) (name : String) :
    next.symbols.contains name = true ↔
      run.symbols.contains name = true ∨ ∃ s ∈ statements, s.target? = some name := by
  induction statements generalizing run with
  | nil => cases h; simp
  | cons s rest ih =>
      simp only [executeAll] at h
      cases hx : run.execute s with
      | error e => rw [hx] at h; cases h
      | ok mid =>
          rw [hx] at h
          have hs : mid.symbols.contains name = true ↔
              s.target? = some name ∨ run.symbols.contains name = true := by
            rw [← ((execute_eq_ok_iff run mid s).mp hx).2, contains_after]
            simp
          rw [ih h, hs]
          simp only [List.mem_cons, exists_eq_or_imp, or_assoc, or_left_comm]

/-! ### Two runs in lockstep -/

/-- Two attempts at a step that fail alike, or that lead to states related by `R`. -/
inductive Lockstep (R : Run → Run → Prop) :
    Except ScriptError Run → Except ScriptError Run → Prop
  | failed (e : ScriptError) : Lockstep R (.error e) (.error e)
  | reached {a b : Run} (h : R a b) : Lockstep R (.ok a) (.ok b)

theorem Lockstep.alike {R : Run → Run → Prop} {x y : Except ScriptError Run}
    (h : Lockstep R x y) :
    (∃ e, x = .error e ∧ y = .error e) ∨ ∃ a b, x = .ok a ∧ y = .ok b ∧ R a b := by
  cases h with
  | failed e => exact Or.inl ⟨e, rfl, rfl⟩
  | reached hnext => exact Or.inr ⟨_, _, rfl, rfl, hnext⟩

theorem Lockstep.mono {Q R : Run → Run → Prop} {x y : Except ScriptError Run}
    (h : Lockstep Q x y) (hsub : ∀ a b, Q a b → R a b) : Lockstep R x y := by
  cases h with
  | failed e => exact .failed e
  | reached hnext => exact .reached (hsub _ _ hnext)

/-- A statement keeps two runs in lockstep if the same names are bound in them and the
states behind it are related again. -/
theorem execute_lockstep {R : Run → Run → Prop} {a b : Run} {s : Statement}
    (hnames : a.symbols.contains = b.symbols.contains) (hafter : R (a.after s) (b.after s)) :
    Lockstep R (a.execute s) (b.execute s) := by
  rw [execute_eq, execute_eq, hnames]
  cases s.error? b.symbols.contains with
  | none => exact .reached hafter
  | some e => exact .failed e

/-- A relation that every statement keeps is kept by every line. -/
theorem take_lockstep {R : Run → Run → Prop}
    (hstep : ∀ a b s, R a b → Lockstep R (a.execute s) (b.execute s)) {a b : Run} (h : R a b)
    (line : Line) : Lockstep R (a.take line) (b.take line) := by
  cases line with
  | declaration title => exact .reached h
  | statement s => exact hstep a b s h

/-- **A relation that every statement keeps is kept by every run.** -/
theorem takeAll_lockstep {R : Run → Run → Prop}
    (hstep : ∀ a b s, R a b → Lockstep R (a.execute s) (b.execute s)) {a b : Run} (h : R a b)
    (lines : List (Except ScriptError Line)) : Lockstep R (a.takeAll lines) (b.takeAll lines) := by
  induction lines generalizing a b with
  | nil => exact .reached h
  | cons item rest ih =>
      cases item with
      | error e => exact .failed e
      | ok line =>
          simp only [takeAll]
          rcases (take_lockstep hstep h line).alike with ⟨e, ha, hb⟩ | ⟨a', b', ha, hb, hnext⟩
          · rw [ha, hb]
            exact .failed e
          · rw [ha, hb]
            exact ih hnext

end Run

end ChartScript
