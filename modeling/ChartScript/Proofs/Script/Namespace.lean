/-
What a right-hand side is read as.

Text under the namespace is a call if the name behind the point is a reserved one, and then it is
an indicator or an error.  Otherwise it is left to arithmetic, which takes nothing that starts with
the namespace: a point starts a number, and no expression has a number behind a name.  That holds
of a point with digits behind it as well, where the text is cut into words without any error.  So
an unknown name of the namespace is kept as text that does not parse, whatever follows it, and its
series is undefined at every bar.

All other text is arithmetic if it parses, and kept if it does not; it is never an error.
-/
import ChartScript.Proofs.Script.Assignment

namespace ChartScript

open Text

namespace Indicator

/-! ### Names under the namespace -/

/-- A name that a call may have behind the namespace. -/
def IsReserved (name : List Char) : Prop :=
  String.ofList name ∈ ["rsi", "sma", "ema", "wma", "macd", "atr", "stoch", "bb"]

/-- A text starts with the namespace, and `name` is all of the letters, digits and underscores
that follow. -/
structure NamesUnder (cs name rest : List Char) : Prop where
  text : cs = namespaceMark.toList ++ (name ++ rest)
  word : ∀ c ∈ name, isIdentifierRest c = true
  longest : ∀ c ∈ rest.head?, isIdentifierRest c = false

variable {cs name rest : List Char}

/-- Every text that starts with the namespace has a name there, perhaps an empty one. -/
theorem exists_namesUnder (h : namespaceMark.toList <+: cs) :
    ∃ name rest, NamesUnder cs name rest := by
  obtain ⟨behind, rfl⟩ := h
  refine ⟨behind.takeWhile isIdentifierRest, behind.dropWhile isIdentifierRest, ?_,
    mem_takeWhile, ?_⟩
  · rw [List.takeWhile_append_dropWhile]
  · intro c hc
    have hstop := List.head?_dropWhile_not isIdentifierRest behind
    rw [Option.mem_def.mp hc] at hstop
    exact hstop

theorem NamesUnder.takeWhile_eq (h : NamesUnder cs name rest) :
    (name ++ rest).takeWhile isIdentifierRest = name := by
  rw [List.takeWhile_append_of_pos h.word]
  cases rest with
  | nil => exact List.append_nil name
  | cons c others =>
      have hc := h.longest c rfl
      rw [List.takeWhile_cons_of_neg (by rw [hc]; exact Bool.false_ne_true), List.append_nil]

theorem Kind.isSome_ofName?_iff (name : List Char) :
    (ofName? (String.ofList name)).isSome = true ↔ IsReserved name := by
  have hnames : all.map Kind.name =
      ["rsi", "sma", "ema", "wma", "macd", "atr", "stoch", "bb"] := rfl
  rw [IsReserved, ← hnames, List.mem_map, ofName?, List.find?_isSome]
  simp only [beq_iff_eq]

/-- **A text under the namespace is a call exactly if its name is reserved.** -/
theorem isSome_readCall?_iff (h : NamesUnder cs name rest) :
    (readCall? cs).isSome = true ↔ IsReserved name := by
  have hmark : namespaceMark.toList.isPrefixOf? cs = some (name ++ rest) :=
    List.isPrefixOf?_eq_some_iff_append_eq.mpr h.text.symm
  rw [← Kind.isSome_ofName?_iff]
  simp only [readCall?, hmark, h.takeWhile_eq]
  cases Kind.ofName? (String.ofList name) <;> simp

/-- Other text is no call. -/
theorem readCall?_eq_none (h : ¬namespaceMark.toList <+: cs) : readCall? cs = none := by
  unfold readCall?
  cases hmark : namespaceMark.toList.isPrefixOf? cs with
  | none => rfl
  | some rest => exact absurd ⟨rest, List.isPrefixOf?_eq_some_iff_append_eq.mp hmark⟩ h

end Indicator

namespace Expression

open Indicator

variable {cs : List Char}

/-! ### Calls and other text -/

/-- A call is an indicator or an error. -/
theorem parse_of_isSome_readCall? (h : (readCall? (trim cs)).isSome = true) :
    (∃ call, parse cs = .ok (.indicator call)) ∨ ∃ fault, parse cs = .error fault := by
  obtain ⟨read, hread⟩ := Option.isSome_iff_exists.mp h
  simp only [parse, hread]
  cases read with
  | ok call => exact Or.inl ⟨call, rfl⟩
  | error fault => exact Or.inr ⟨fault, rfl⟩

/-- Text that is no call is what arithmetic makes of it. -/
theorem parse_of_readCall?_eq_none (h : readCall? (trim cs) = none) :
    parse cs =
      match Arithmetic.parse (trim cs) with
      | .ok tree => .ok (.arithmetic tree)
      | .error error => .ok (.invalid (String.ofList (trim cs)) error) := by
  cases hparse : Arithmetic.parse (trim cs) with
  | ok tree => simp only [parse, h, hparse]
  | error error => simp only [parse, h, hparse]

/-- Text that does not parse has a value for each bar, and none of them is a number. -/
theorem evaluate_invalid (table : SymbolTable) (text : String) (error : ParseError) :
    ∃ series, evaluate table (.invalid text error) = .ok series ∧
      series.length = table.barCount ∧ ∀ value ∈ series, value.isNaN = true := by
  refine ⟨_, rfl, List.length_replicate, fun value hvalue => ?_⟩
  rw [List.eq_of_mem_replicate hvalue]
  rfl

/-- **Nothing under the namespace is ever evaluated as arithmetic.**  What is written there is an
indicator or an error if its name is reserved, and otherwise it is kept as text whose series is
undefined at every bar.  All other text is no error: it is arithmetic if it parses, and kept if it
does not. -/
theorem nothing_under_namespace_is_arithmetic (cs : List Char) :
    (namespaceMark.toList <+: trim cs →
      ∃ name rest, NamesUnder (trim cs) name rest ∧
        (((∃ call, parse cs = .ok (.indicator call)) ∨ ∃ fault, parse cs = .error fault) ↔
          IsReserved name) ∧
        (¬IsReserved name →
          ∃ error, parse cs = .ok (.invalid (String.ofList (trim cs)) error) ∧
            ∀ table, ∃ series,
              evaluate table (.invalid (String.ofList (trim cs)) error) = .ok series ∧
                series.length = table.barCount ∧ ∀ value ∈ series, value.isNaN = true) ∧
        ∀ tree, parse cs ≠ .ok (.arithmetic tree)) ∧
    (¬namespaceMark.toList <+: trim cs →
      (∀ fault, parse cs ≠ .error fault) ∧
      (∀ tree, parse cs = .ok (.arithmetic tree) ↔ Arithmetic.parse (trim cs) = .ok tree) ∧
      ((∀ tree, Arithmetic.parse (trim cs) ≠ .ok tree) →
        ∃ error, parse cs = .ok (.invalid (String.ofList (trim cs)) error))) := by
  refine ⟨fun hmark => ?_, fun hmark => ?_⟩
  · obtain ⟨name, rest, hname⟩ := exists_namesUnder hmark
    have hreserved := isSome_readCall?_iff hname
    have hother : ¬IsReserved name →
        ∃ error, parse cs = .ok (.invalid (String.ofList (trim cs)) error) := by
      intro hnot
      have hnone : readCall? (trim cs) = none := by
        rwa [← hreserved, Bool.not_eq_true, Option.isSome_eq_false_iff, Option.isNone_iff_eq_none]
          at hnot
      rw [parse_of_readCall?_eq_none hnone]
      cases harithmetic : Arithmetic.parse (trim cs) with
      | ok tree => exact absurd hmark (Arithmetic.not_namespaceMark_of_parse harithmetic)
      | error error => exact ⟨error, rfl⟩
    refine ⟨name, rest, hname, ⟨fun hread => ?_, fun h => ?_⟩, fun hnot => ?_, fun tree htree => ?_⟩
    · by_contra hnot
      obtain ⟨error, hinvalid⟩ := hother hnot
      rcases hread with ⟨call, hcall⟩ | ⟨fault, hfault⟩
      · cases hinvalid.symm.trans hcall
      · cases hinvalid.symm.trans hfault
    · exact parse_of_isSome_readCall? (hreserved.mpr h)
    · obtain ⟨error, hinvalid⟩ := hother hnot
      exact ⟨error, hinvalid, fun table => evaluate_invalid table _ error⟩
    · by_cases h : IsReserved name
      · rcases parse_of_isSome_readCall? (hreserved.mpr h) with ⟨call, hcall⟩ | ⟨fault, hfault⟩
        · cases hcall.symm.trans htree
        · cases hfault.symm.trans htree
      · obtain ⟨error, hinvalid⟩ := hother h
        cases hinvalid.symm.trans htree
  · rw [parse_of_readCall?_eq_none (readCall?_eq_none hmark)]
    cases Arithmetic.parse (trim cs) with
    | ok tree => simp
    | error error => simp

/-- A number is a word of its own behind the namespace, but no expression goes on with it. -/
example : parse "ta.5 + 1".toList =
    .ok (.invalid "ta.5 + 1" ⟨.surplusLexeme (.number 0.5), 2⟩) := by
  decide +kernel

end Expression

end ChartScript
