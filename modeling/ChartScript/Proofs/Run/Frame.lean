/-
What a statement depends on.

A right-hand side reads some names, and two tables in which these names stand for the same
series, over as many bars, give it the same value or the same fault.  A statement therefore
takes two runs that agree on what it reads to runs that agree on this and on its target, or
it fails alike in both.  Runs that agree on every name go on alike to the end.
-/
import ChartScript.Proofs.Run.Steps

namespace ChartScript

/-! ### What is read -/

/-- The names that a right-hand side reads. -/
def Expression.reads : Expression → List String
  | .indicator call => call.sources
  | .arithmetic tree => tree.symbols
  | .invalid _ _ => []

/-- The names that a statement reads. -/
def Statement.reads (s : Statement) : List String :=
  match s.action with
  | .assign _ expression => expression.reads
  | .plot plot => [plot.series]

namespace Arithmetic

theorem mem_addName {names : List String} {name other : String} :
    name ∈ addName names other ↔ name ∈ names ∨ name = other := by
  unfold addName
  by_cases h : other ∈ names
  · rw [if_pos (by simpa using h)]
    constructor
    · exact Or.inl
    · rintro (hmem | rfl)
      · exact hmem
      · exact h
  · rw [if_neg (by simpa using h)]
    simp

/-- The names in front of those that an expression reads stay. -/
theorem mem_symbolsFrom {names : List String} {name : String} (e : Arithmetic) :
    name ∈ e.symbolsFrom names ↔ name ∈ names ∨ name ∈ e.symbols := by
  induction e generalizing names with
  | number value => simp [symbols, symbolsFrom]
  | symbol other => simp [symbols, symbolsFrom, mem_addName]
  | neg operand ih => exact ih
  | binary operation left right ihl ihr =>
      have hsymbols : name ∈ (binary operation left right).symbols ↔
          name ∈ left.symbols ∨ name ∈ right.symbols := ihr
      rw [hsymbols, symbolsFrom, ihr, ihl, or_assoc]

@[simp] theorem mem_symbols_symbol {name other : String} :
    name ∈ (symbol other).symbols ↔ name = other := by
  simp [symbols, symbolsFrom, mem_addName]

@[simp] theorem mem_symbols_binary {name : String} {operation : Operation}
    {left right : Arithmetic} :
    name ∈ (binary operation left right).symbols ↔ name ∈ left.symbols ∨ name ∈ right.symbols :=
  mem_symbolsFrom right

end Arithmetic

/-! ### Tables that agree -/

namespace SymbolTable

/-- Two tables over as many bars give the same series to the names in `P`. -/
structure Agree (P : String → Prop) (a b : SymbolTable) : Prop where
  barCount : a.barCount = b.barCount
  get? : ∀ name, P name → a.get? name = b.get? name

variable {P Q : String → Prop} {a b : SymbolTable}

theorem Agree.mono (h : Agree P a b) (hsub : ∀ name, Q name → P name) : Agree Q a b :=
  ⟨h.barCount, fun name hname => h.get? name (hsub name hname)⟩

/-- Binding a name to the same series makes tables agree on it. -/
theorem Agree.insert (h : Agree P a b) (target : String) (series : Series) :
    Agree (fun name => P name ∨ target = name) (a.insert target series)
      (b.insert target series) := by
  refine ⟨h.barCount, fun name hname => ?_⟩
  rw [get?_insert, get?_insert]
  by_cases heq : target = name
  · rw [if_pos heq, if_pos heq]
  · rw [if_neg heq, if_neg heq]
    exact h.get? name (hname.resolve_right heq)

/-- A table with a name bound agrees with the table on all other names. -/
theorem insert_agree (table : SymbolTable) (target : String) (series : Series) :
    Agree (fun name => name ≠ target) (table.insert target series) table := by
  refine ⟨rfl, fun name hname => ?_⟩
  rw [get?_insert, if_neg hname.symm]

/-- Two names can be bound in either order. -/
theorem insert_insert_agree (table : SymbolTable) {x y : String} (hne : x ≠ y) (v w : Series) :
    Agree (fun _ => True) ((table.insert x v).insert y w) ((table.insert y w).insert x v) := by
  refine ⟨rfl, fun name _ => ?_⟩
  simp only [get?_insert]
  by_cases hx : x = name
  · have hy : ¬y = name := fun hy => hne (hx.trans hy.symm)
    simp only [if_pos hx, if_neg hy]
  · simp only [if_neg hx]

end SymbolTable

/-! ### Evaluation in tables that agree -/

section

variable {P : String → Prop} {a b : SymbolTable}

theorem Arithmetic.evalAt_congr {e : Arithmetic} (h : a.Agree P b)
    (hreads : ∀ name ∈ e.symbols, P name) (index : Nat) : e.evalAt a index = e.evalAt b index := by
  induction e with
  | number value => rfl
  | symbol name => simp only [evalAt, h.get? name (hreads name (by simp))]
  | neg operand ih => simp only [evalAt, ih hreads]
  | binary operation left right ihl ihr =>
      have hleft : ∀ name ∈ left.symbols, P name := fun name hmem => hreads name (by simp [hmem])
      have hright : ∀ name ∈ right.symbols, P name := fun name hmem => hreads name (by simp [hmem])
      simp only [evalAt, ihl hleft, ihr hright]

theorem Arithmetic.evaluate_congr {e : Arithmetic} (h : a.Agree P b)
    (hreads : ∀ name ∈ e.symbols, P name) : e.evaluate a = e.evaluate b := by
  simp only [evaluate, h.barCount]
  refine List.map_congr_left fun index _ => ?_
  simp only [valueAt, evalAt_congr h hreads]

theorem Indicator.compute_congr {call : Indicator} (h : a.Agree P b)
    (hreads : ∀ name ∈ call.sources, P name) : call.compute a = call.compute b := by
  have hsource : ∀ name ∈ call.sources, source a name = source b name := by
    intro name hmem
    simp only [source, h.get? name (hreads name hmem)]
  cases call with
  | sma name _ | ema name _ | wma name _ | rsi name _ =>
      simp only [compute, hsource name (by simp [sources])]
  | macd name _ _ _ | bollinger name _ _ =>
      simp only [compute, hsource name (by simp [sources])]
  | atr _ | stoch _ _ =>
      simp only [compute, hsource "high" (by simp [sources]), hsource "low" (by simp [sources]),
        hsource "close" (by simp [sources])]

/-- **A right-hand side depends on the names it reads, and on how many bars there are.** -/
theorem Expression.evaluate_congr {expression : Expression} (h : a.Agree P b)
    (hreads : ∀ name ∈ expression.reads, P name) :
    expression.evaluate a = expression.evaluate b := by
  cases expression with
  | indicator call => simp only [evaluate, Indicator.compute_congr h hreads]
  | arithmetic tree => simp only [evaluate, Arithmetic.evaluate_congr h hreads]
  | invalid text error => simp only [evaluate, h.barCount]

/-- Binding a name changes nothing for a right-hand side that does not read it. -/
theorem Expression.evaluate_insert {expression : Expression} {target : String}
    (hreads : target ∉ expression.reads) (table : SymbolTable) (series : Series) :
    expression.evaluate (table.insert target series) = expression.evaluate table :=
  evaluate_congr (table.insert_agree target series)
    fun _ hmem hname => hreads (hname ▸ hmem)

end

namespace Run

/-! ### Runs that agree -/

/-- Two runs have come to the same plots and agree on the names in `P`. -/
structure Agree (P : String → Prop) (a b : Run) : Prop where
  bars : a.bars = b.bars
  symbols : a.symbols.Agree P b.symbols
  results : a.results = b.results

variable {P Q : String → Prop} {a b : Run}

theorem Agree.refl (run : Run) : Agree P run run :=
  ⟨rfl, ⟨rfl, fun _ _ => rfl⟩, rfl⟩

theorem Agree.mono (h : Agree P a b) (hsub : ∀ name, Q name → P name) : Agree Q a b :=
  ⟨h.bars, h.symbols.mono hsub, h.results⟩

/-- Drawing a name on which two runs agree keeps them in agreement. -/
theorem Agree.draw (h : Agree P a b) {plot : PlotStatement} (hname : P plot.series) :
    Agree P (a.draw plot) (b.draw plot) := by
  refine ⟨by rw [bars_draw, bars_draw, h.bars], by simpa using h.symbols, ?_⟩
  unfold Run.draw
  rw [h.symbols.get? plot.series hname]
  cases b.symbols.get? plot.series with
  | none => exact h.results
  | some series => rw [h.bars, h.results]

/-- **A statement takes runs that agree on what it reads to runs that agree on its target
too.** -/
theorem Agree.execute (h : Agree P a b) {s : Statement} (hreads : ∀ name ∈ s.reads, P name) :
    Lockstep (Agree fun name => P name ∨ s.target? = some name) (a.execute s) (b.execute s) := by
  unfold Run.execute
  cases haction : s.action with
  | plot plot =>
      have hseries : P plot.series := hreads _ (by simp [Statement.reads, haction])
      exact .reached ((h.draw hseries).mono fun name hname => by
        simpa [Statement.target?, haction] using hname)
  | assign target expression =>
      have hexpression : ∀ name ∈ expression.reads, P name := by
        simpa [Statement.reads, haction] using hreads
      simp only [Expression.evaluate_congr h.symbols hexpression]
      cases expression.evaluate b.symbols with
      | error fault => exact .failed _
      | ok series =>
          refine .reached ⟨h.bars, (h.symbols.insert target series).mono ?_, h.results⟩
          intro name hname
          simpa [Statement.target?, haction] using hname

/-- Runs that agree on every name go on alike. -/
theorem Agree.takeAll (h : Agree (fun _ => True) a b) (lines : List (Except ScriptError Line)) :
    Lockstep (Agree fun _ => True) (a.takeAll lines) (b.takeAll lines) := by
  refine takeAll_lockstep ?_ h lines
  intro a b s hab
  have hstep := hab.execute (s := s) fun _ _ => trivial
  exact hstep.mono fun _ _ hnext => hnext.mono fun _ _ => Or.inl trivial

/-- Attempts that fail alike or lead to runs that agree come to the same plots. -/
theorem Lockstep.results_eq {x y : Except ScriptError Run} (h : Lockstep (Agree P) x y) :
    x.map Run.results = y.map Run.results := by
  cases h with
  | failed e => rfl
  | reached hagree => exact congrArg Except.ok hagree.results

end Run

end ChartScript
