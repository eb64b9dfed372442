/-
When a right-hand side has a series, which one, and how it fails.

Arithmetic always has a series, and so has text that does not parse.  An indicator has
one unless a source of it is not bound, and then the error names the first such source.
So which names are bound decides whether an evaluation fails and with what; no value of
any series plays a part in it.

`compute_eq` and `evaluate_eq` split evaluation into these two questions: `unbound?` and
`fault?` find the failure from a test of names alone, and `series` is the series that there
is without one.  What follows about evaluation is read off these equations.
-/
import ChartScript.Expression

namespace ChartScript

namespace SymbolTable

/-- The names bound from the start. -/
def builtinNames : List String :=
  builtins.map (·.1)

theorem contains_insert (table : SymbolTable) (name other : String) (series : Series) :
    (table.insert name series).contains other = (name == other || table.contains other) := by
  unfold contains
  rw [get?_insert]
  by_cases h : name = other
  · simp [h]
  · simp [h]

/-- A run starts with the built-in names bound and no others. -/
theorem contains_ofBars (bars : List Bar) (name : String) :
    (ofBars bars).contains name = builtinNames.contains name := by
  have hfind : ∀ l : List (String × (Bar → Float)),
      (((l.map fun b => (b.1, bars.map b.2)).find? fun b => b.1 == name).map
        (·.2)).isSome = (l.map (·.1)).contains name := by
    intro l
    induction l with
    | nil => rfl
    | cons b rest ih =>
        obtain ⟨other, get⟩ := b
        by_cases h : other = name
        · simp [h]
        · have hne : (name == other) = false := beq_eq_false_iff_ne.mpr fun e => h e.symm
          simpa [h, hne] using ih
  exact hfind builtins

/-- A name is bound exactly if it has a series. -/
theorem contains_eq_true_iff {table : SymbolTable} {name : String} :
    table.contains name = true ↔ ∃ series, table.get? name = some series :=
  Option.isSome_iff_exists

theorem get?_eq_none_of_not_contains {table : SymbolTable} {name : String}
    (h : table.contains name = false) : table.get? name = none := by
  simpa [contains] using h

/-- The series bound to a name, empty if there is none. -/
def read (table : SymbolTable) (name : String) : Series :=
  (table.get? name).getD []

theorem get?_eq_read {table : SymbolTable} {name : String} (h : table.contains name = true) :
    table.get? name = some (table.read name) := by
  obtain ⟨series, hget⟩ := contains_eq_true_iff.mp h
  simp [read, hget]

end SymbolTable

namespace Indicator

/-- The first source of an indicator that is not bound, where `bound` tests names. -/
def unbound? (bound : String → Bool) (call : Indicator) : Option String :=
  call.sources.find? fun name => !bound name

/-- The series of an indicator over the series that its sources have. -/
def series (read : String → Series) : Indicator → Series
  | .sma name length => Series.sma (read name) length
  | .ema name length => Series.ema (read name) length
  | .wma name length => Series.wma (read name) length
  | .rsi name length => Series.rsi (read name) length
  | .macd name fast slow _ => Series.macdLine (read name) fast slow
  | .atr length => Series.atr (read "high") (read "low") (read "close") length
  | .stoch kLength dLength =>
      Series.stochastic (read "high") (read "low") (read "close") kLength dLength
  | .bollinger name length _ => Series.sma (read name) length

theorem source_of_contains {table : SymbolTable} {name : String}
    (h : table.contains name = true) : source table name = .ok (table.read name) := by
  simp [source, SymbolTable.get?_eq_read h]

theorem source_of_not_contains {table : SymbolTable} {name : String}
    (h : table.contains name = false) : source table name = .error name := by
  simp [source, SymbolTable.get?_eq_none_of_not_contains h]

/-- An indicator reads one series by name, or the built-in ones only. -/
theorem sources_cases (call : Indicator) :
    (∃ name, call.sources = [name]) ∨ ∀ name ∈ call.sources, name ∈ SymbolTable.builtinNames := by
  cases call with
  | sma name _ | ema name _ | wma name _ | rsi name _ => exact Or.inl ⟨name, rfl⟩
  | macd name _ _ _ | bollinger name _ _ => exact Or.inl ⟨name, rfl⟩
  | atr _ | stoch _ _ =>
      have hall : ∀ name ∈ ["high", "low", "close"], name ∈ SymbolTable.builtinNames := by decide
      exact Or.inr hall

/-- Looking up one source fails exactly if it is not bound. -/
theorem read_one_eq (table : SymbolTable) (a : String) (f : Series → Series) :
    (do return f (← source table a) : Except String Series) =
      match [a].find? fun name => !table.contains name with
      | some name => .error name
      | none => .ok (f (table.read a)) := by
  cases ha : table.contains a with
  | false => simp [source_of_not_contains ha, ha, bind, Except.bind]
  | true => simp [source_of_contains ha, ha, bind, Except.bind, pure, Except.pure]

/-- Looking up three sources fails at the first that is not bound. -/
theorem read_three_eq (table : SymbolTable) (a b c : String)
    (f : Series → Series → Series → Series) :
    (do
        let x ← source table a
        let y ← source table b
        let z ← source table c
        return f x y z : Except String Series) =
      match [a, b, c].find? fun name => !table.contains name with
      | some name => .error name
      | none => .ok (f (table.read a) (table.read b) (table.read c)) := by
  cases ha : table.contains a with
  | false => simp [source_of_not_contains ha, ha, bind, Except.bind]
  | true =>
      rw [source_of_contains ha]
      cases hb : table.contains b with
      | false => simp [source_of_not_contains hb, ha, hb, bind, Except.bind]
      | true =>
          rw [source_of_contains hb]
          cases hc : table.contains c with
          | false => simp [source_of_not_contains hc, ha, hb, hc, bind, Except.bind]
          | true => simp [source_of_contains hc, ha, hb, hc, bind, Except.bind, pure, Except.pure]

/-- An indicator fails with its first source that is not bound, and has a series if all of
them are. -/
theorem compute_eq (table : SymbolTable) (call : Indicator) :
    call.compute table =
      match call.unbound? table.contains with
      | some name => .error name
      | none => .ok (call.series table.read) := by
  cases call with
  | sma name _ | ema name _ | wma name _ | rsi name _ => exact read_one_eq table name _
  | macd name _ _ _ | bollinger name _ _ => exact read_one_eq table name _
  | atr _ | stoch _ _ => exact read_three_eq table "high" "low" "close" _

/-- Where the built-in names are bound, an unbound source is the only one. -/
theorem unbound?_eq_some_iff {bound : String → Bool} {call : Indicator} {name : String}
    (hbuiltin : ∀ n ∈ SymbolTable.builtinNames, bound n = true) :
    call.unbound? bound = some name ↔ name ∈ call.sources ∧ bound name = false := by
  unfold unbound?
  constructor
  · intro h
    exact ⟨List.mem_of_find?_eq_some h, by simpa using List.find?_some h⟩
  · rintro ⟨hmem, hname⟩
    rcases sources_cases call with ⟨a, ha⟩ | hall
    · rw [ha] at hmem ⊢
      obtain rfl := List.mem_singleton.mp hmem
      simp [hname]
    · rw [hbuiltin name (hall name hmem)] at hname
      cases hname

end Indicator

namespace Expression

/-- How the evaluation of a right-hand side fails, if it does, where `bound` tests
names. -/
def fault? (bound : String → Bool) : Expression → Option ScriptFault
  | .indicator call => (call.unbound? bound).map fun name => .undefinedVariable name call
  | .arithmetic _ | .invalid _ _ => none

/-- The series of a right-hand side whose evaluation does not fail. -/
def series (table : SymbolTable) : Expression → Series
  | .indicator call => call.series table.read
  | .arithmetic tree => tree.evaluate table
  | .invalid _ _ => List.replicate table.barCount Scalar.undefined

/-- **Whether an evaluation fails depends only on which names are bound.** -/
theorem evaluate_eq (table : SymbolTable) (expression : Expression) :
    expression.evaluate table =
      match expression.fault? table.contains with
      | some fault => .error fault
      | none => .ok (expression.series table) := by
  cases expression with
  | indicator call =>
      simp only [evaluate, Indicator.compute_eq, fault?, series]
      cases call.unbound? table.contains <;> rfl
  | arithmetic tree => rfl
  | invalid text error => rfl

end Expression

end ChartScript
