/-
No run looks ahead.

A run over the first `n` bars is the run over all bars seen through its first `n` indices.
Every series bound in the one is the beginning of the series bound in the other: this holds
of the series of the bars, and every right-hand side keeps it, since no indicator looks
ahead and arithmetic looks at one index at a time.  So the two runs fail alike, and draw
the same plots as far as the bars go.
-/
import ChartScript.Proofs.Run.Drawing
import ChartScript.Proofs.Series.Prefix

namespace ChartScript

namespace SymbolTable

/-- The table with every series cut to its first `n` values. -/
def first (n : Nat) (table : SymbolTable) : SymbolTable where
  barCount := min n table.barCount
  bindings := table.bindings.map fun (name, series) => (name, series.take n)

theorem get?_first (n : Nat) (table : SymbolTable) (name : String) :
    (table.first n).get? name = (table.get? name).map (List.take n) := by
  simp only [get?, first, List.find?_map, Option.map_map]
  rfl

theorem contains_first (n : Nat) (table : SymbolTable) :
    (table.first n).contains = table.contains := by
  funext name
  simp only [contains, get?_first, Option.isSome_map]

theorem read_first (n : Nat) (table : SymbolTable) :
    (table.first n).read = fun name => (table.read name).take n := by
  funext name
  simp only [read, get?_first]
  cases table.get? name <;> simp

theorem insert_first (n : Nat) (table : SymbolTable) (name : String) (series : Series) :
    (table.first n).insert name (series.take n) = (table.insert name series).first n := by
  simp only [insert, first, List.map_cons, List.filter_map]
  rfl

/-- The table of the first bars is that of all bars, cut to its first values. -/
theorem ofBars_take (n : Nat) (bars : List Bar) : ofBars (bars.take n) = (ofBars bars).first n := by
  simp only [ofBars, first, List.length_take, List.map_map, Function.comp_def, List.map_take]

end SymbolTable

namespace Arithmetic

/-- At an index below `n` arithmetic reads nothing that the cut takes away. -/
theorem evalAt_first {n index : Nat} (h : index < n) (table : SymbolTable) (e : Arithmetic) :
    e.evalAt (table.first n) index = e.evalAt table index := by
  induction e with
  | number value => rfl
  | symbol name =>
      have hget : ((table.first n).get? name).bind (·[index]?) =
          (table.get? name).bind (·[index]?) := by
        rw [SymbolTable.get?_first, Option.bind_map]
        congr 1
        funext series
        exact List.getElem?_take_of_lt h
      simp only [evalAt, hget]
  | neg operand ih => simp only [evalAt, ih]
  | binary operation left right ihl ihr => simp only [evalAt, ihl, ihr]

theorem evaluate_first (n : Nat) (table : SymbolTable) (e : Arithmetic) :
    e.evaluate (table.first n) = (e.evaluate table).take n := by
  unfold evaluate
  rw [← List.map_take, List.take_range]
  refine List.map_congr_left fun index hindex => ?_
  have hlt : index < n := Nat.lt_of_lt_of_le (List.mem_range.mp hindex) (Nat.min_le_left _ _)
  simp only [valueAt, evalAt_first hlt]

end Arithmetic

/-- An indicator over the first values gives the first values. -/
theorem Indicator.series_take (n : Nat) (read : String → Series) (call : Indicator) :
    call.series (fun name => (read name).take n) = (call.series read).take n := by
  cases call with
  | sma name length => exact Series.sma_take _ length n
  | ema name length => exact Series.ema_take _ length n
  | wma name length => exact Series.wma_take _ length n
  | rsi name length => exact Series.rsi_take _ length n
  | macd name fast slow signal => exact Series.macdLine_take _ fast slow n
  | atr length => exact Series.atr_take _ _ _ length n
  | stoch kLength dLength => exact Series.stochastic_take _ _ _ kLength dLength n
  | bollinger name length multiplier => exact Series.sma_take _ length n

namespace Expression

theorem series_first (n : Nat) (table : SymbolTable) (expression : Expression) :
    expression.series (table.first n) = (expression.series table).take n := by
  cases expression with
  | indicator call =>
      show call.series (table.first n).read = _
      rw [SymbolTable.read_first]
      exact call.series_take n table.read
  | arithmetic tree => exact tree.evaluate_first n table
  | invalid text error => simp only [series, SymbolTable.first, List.take_replicate]

/-- **A right-hand side over the first values gives the first values.** -/
theorem evaluate_first (n : Nat) (table : SymbolTable) (expression : Expression) :
    expression.evaluate (table.first n) = (expression.evaluate table).map (List.take n) := by
  rw [evaluate_eq, evaluate_eq, SymbolTable.contains_first, series_first]
  cases expression.fault? table.contains <;> rfl

end Expression

/-! ### Runs -/

/-- The drawing with its series cut to the first `n` values. -/
def Drawing.first (n : Nat) (d : Drawing) : Drawing :=
  { d with series := d.series.take n }

/-- The drawing with its series from index `n` on. -/
def Drawing.later (n : Nat) (d : Drawing) : Drawing :=
  { d with series := d.series.drop n }

/-- The points of a drawing are those of its first values and then those of the later
ones. -/
theorem Drawing.data_split (bars : List Bar) (n : Nat) (d : Drawing) :
    (d.over bars).data =
      ((d.first n).over (bars.take n)).data ++ ((d.later n).over (bars.drop n)).data := by
  have hsplit : bars.zip d.series =
      (bars.take n).zip (d.series.take n) ++ (bars.drop n).zip (d.series.drop n) := by
    simp only [List.zip_eq_zipWith, ← List.take_zipWith, ← List.drop_zipWith,
      List.take_append_drop]
  show (bars.zip d.series).filterMap _ = _
  rw [hsplit, List.filterMap_append]
  rfl

namespace Run

/-- A run over the first `n` bars, beside the run over all of them. -/
structure Earlier (n : Nat) (short long : Run) : Prop where
  bars : short.bars = long.bars.take n
  symbols : short.symbols = long.symbols.first n

variable {n : Nat} {short long : Run}

theorem start_earlier (n : Nat) (bars : List Bar) :
    Earlier n (start (bars.take n)) (start bars) :=
  ⟨rfl, SymbolTable.ofBars_take n bars⟩

theorem Earlier.contains_eq (h : Earlier n short long) :
    short.symbols.contains = long.symbols.contains := by
  rw [h.symbols, SymbolTable.contains_first]

theorem Earlier.after (h : Earlier n short long) (s : Statement) :
    Earlier n (short.after s) (long.after s) := by
  refine ⟨by rw [bars_after, bars_after, h.bars], ?_⟩
  unfold Run.after
  split
  · show short.symbols.insert _ _ = (long.symbols.insert _ _).first n
    rw [h.symbols, Expression.series_first, SymbolTable.insert_first]
  · rw [symbols_draw, symbols_draw, h.symbols]

theorem Earlier.execute {n : Nat} (short long : Run) (s : Statement) (h : Earlier n short long) :
    Lockstep (Earlier n) (short.execute s) (long.execute s) :=
  execute_lockstep h.contains_eq (h.after s)

theorem Earlier.drawing? (h : Earlier n short long) (line : Line) :
    short.drawing? line = (long.drawing? line).map (Drawing.first n) := by
  cases line with
  | declaration title => rfl
  | statement s =>
      cases ha : s.action with
      | assign target expression => simp [Run.drawing?, ha]
      | plot plot =>
          simp only [Run.drawing?, ha, h.symbols, SymbolTable.get?_first, Option.map_map]
          rfl

/-- The two runs draw the same plots, the shorter one the first values of each. -/
theorem Earlier.drawings (h : Earlier n short long) (lines : List (Except ScriptError Line)) :
    short.drawings lines = (long.drawings lines).map (Drawing.first n) := by
  induction lines generalizing short long with
  | nil => rfl
  | cons item rest ih =>
      cases item with
      | error e => rfl
      | ok line =>
          rcases (take_lockstep Earlier.execute h line).alike with
            ⟨e, hshort, hlong⟩ | ⟨next, next', hshort, hlong, hnext⟩
          · rw [drawings_of_take_eq_error hshort, drawings_of_take_eq_error hlong]
            rfl
          · rw [drawings_cons hshort, drawings_cons hlong, List.map_append, ih hnext,
              hnext.drawing? line]
            cases next'.drawing? line <;> rfl

/--
**No look-ahead.**  A script over the first `n` bars fails as it does over all bars, or it
draws the same plots with the first `n` values of each series, and then the points of a
plot are those it has over all bars up to the bar with index `n`.  Of a single right-hand
side the same holds over any table.
-/
theorem outcome_over_first_bars (script : List Char) (bars : List Bar) (n : Nat) :
    ((∃ message, outcome script (bars.take n) = .failure message ∧
        outcome script bars = .failure message) ∨
      (outcome script bars = .success ((drawn script bars).map (Drawing.over bars)) ∧
        outcome script (bars.take n) =
          .success ((drawn script bars).map fun d => (d.first n).over (bars.take n)))) ∧
    (∀ d ∈ drawn script bars,
      (d.over bars).data =
        ((d.first n).over (bars.take n)).data ++ ((d.later n).over (bars.drop n)).data) ∧
    ∀ (table : SymbolTable) (expression : Expression),
      expression.evaluate (table.first n) = (expression.evaluate table).map (List.take n) := by
  refine ⟨?_, fun d _ => d.data_split bars n, fun table e => e.evaluate_first n table⟩
  rcases (takeAll_lockstep Earlier.execute (start_earlier n bars)
    (Script.readLines script)).alike with ⟨e, hshort, hlong⟩ | ⟨short, long, hshort, hlong, -⟩
  · exact Or.inl ⟨e.message, outcome_of_takeAll_eq_error hshort, outcome_of_takeAll_eq_error hlong⟩
  · have hdrawn : drawn script (bars.take n) = (drawn script bars).map (Drawing.first n) :=
      (start_earlier n bars).drawings (Script.readLines script)
    refine Or.inr ⟨outcome_of_takeAll_eq_ok hlong, ?_⟩
    rw [outcome_of_takeAll_eq_ok hshort, hdrawn, List.map_map]
    rfl

end Run

end ChartScript
