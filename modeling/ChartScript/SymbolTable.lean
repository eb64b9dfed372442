/-
Symbol tables: the series that names are bound to.

A series has one value for each bar, undefined where it has none to give.  A run
starts with the five series that the bars themselves hold, and every assignment adds
a series or replaces one as a whole.
-/
import ChartScript.Bar
import ChartScript.Text.Order

namespace ChartScript

/-- One value for each bar. -/
abbrev Series := List Float

/-- The names bound in a run, and how many bars the run is over. -/
structure SymbolTable where
  barCount : Nat
  /-- Each bound name with its series, the latest binding first. -/
  bindings : List (String × Series)

namespace SymbolTable

/-- The names bound from the start, with the part of a bar that each reads. -/
def builtins : List (String × (Bar → Float)) :=
  [("close", Bar.close), ("open", Bar.openPrice), ("high", Bar.high), ("low", Bar.low),
    ("volume", Bar.volume)]

/-- The table a run over some bars starts with. -/
def ofBars (bars : List Bar) : SymbolTable where
  barCount := bars.length
  bindings := builtins.map fun (name, get) => (name, bars.map get)

/-- The series bound to a name, if the name is bound. -/
def get? (table : SymbolTable) (name : String) : Option Series :=
  (table.bindings.find? fun binding => binding.1 == name).map (·.2)

/-- Whether a name is bound. -/
def contains (table : SymbolTable) (name : String) : Bool :=
  (table.get? name).isSome

/-- Bind a name to a series, in place of the one it is bound to, if any. -/
def insert (table : SymbolTable) (name : String) (series : Series) : SymbolTable where
  barCount := table.barCount
  bindings := (name, series) :: table.bindings.filter fun binding => binding.1 != name

/-- The bound names in ascending order. -/
def names (table : SymbolTable) : List String :=
  Text.sortNames (table.bindings.map (·.1))

/-- An insertion changes the binding of its own name and of no other. -/
theorem get?_insert (table : SymbolTable) (name other : String) (series : Series) :
    (table.insert name series).get? other =
      if name = other then some series else table.get? other := by
  by_cases h : name = other
  · simp [get?, insert, h]
  · have hfilter : ∀ bindings : List (String × Series),
        (bindings.filter fun b => b.1 != name).find? (fun b => b.1 == other) =
          bindings.find? fun b => b.1 == other := by
      intro bindings
      induction bindings with
      | nil => rfl
      | cons b bs ih =>
          by_cases hb : b.1 = name
          · have hother : b.1 ≠ other := fun e => h (hb ▸ e)
            simp [hb, h, ih]
          · by_cases ho : b.1 = other
            · have : ¬other = name := fun e => h e.symm
              simp [ho, this]
            · simp [hb, ho, ih]
    simp [get?, insert, h, hfilter]

@[simp] theorem get?_insert_self (table : SymbolTable) (name : String) (series : Series) :
    (table.insert name series).get? name = some series := by
  simp [get?_insert]

@[simp] theorem barCount_insert (table : SymbolTable) (name : String) (series : Series) :
    (table.insert name series).barCount = table.barCount := rfl

end SymbolTable

end ChartScript
