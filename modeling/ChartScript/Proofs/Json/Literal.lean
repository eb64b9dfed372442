/-
Numbers as they are written in market data.

A literal is a number text that JSON allows: a whole part without a superfluous zero, perhaps
digits behind a point, perhaps an exponent in any of its spellings.  Two readers take it.  The
one for documents makes a numeral of it, and the one for plain text a floating-point number at
once; neither refuses a literal as text.  That they give the same number is another matter, and
not always so: see `Numeral.toFloat?`.
-/
import ChartScript.Proofs.Decimal.PlainText
import ChartScript.Proofs.Text.Rows

namespace ChartScript

open Text

/-- A number text that JSON allows. -/
structure Literal where
  negative : Bool
  whole : List Char
  fraction : List Char
  exponent : List Char
  nonempty : whole ≠ []
  isDigit_whole : ∀ c ∈ whole, c.isDigit = true
  zero : whole.head? = some '0' → whole = ['0']
  isDigit_fraction : ∀ c ∈ fraction, c.isDigit = true
  isExponent : IsExponent exponent

namespace Literal

variable (ℓ : Literal)

/-- The text behind the sign. -/
def unsignedText : List Char :=
  ℓ.whole ++ (Numeral.fractionText ℓ.fraction ++ ℓ.exponent)

def text : List Char :=
  (if ℓ.negative then ['-'] else []) ++ ℓ.unsignedText

/-- The number that an exponent gives, if there is one. -/
def exponentValue (exponent : List Char) : Option Int :=
  if exponent.isEmpty then none else Decimal.readExponent? exponent

/-- The numeral that is written. -/
def numeral : Numeral :=
  ⟨ℓ.negative, ℓ.whole, ℓ.fraction, exponentValue ℓ.exponent⟩

theorem isWritable_numeral : ℓ.numeral.IsWritable :=
  ⟨ℓ.nonempty, ℓ.isDigit_whole, ℓ.zero, ℓ.isDigit_fraction⟩

/-- The literal of an integer. -/
def ofInt (i : Int) : Literal where
  negative := decide (i < 0)
  whole := digits i.natAbs
  fraction := []
  exponent := []
  nonempty := digits_ne_nil _
  isDigit_whole _ hc := Json.Token.isDigit_of_mem_digits hc
  zero := digits_eq_zero_of_head?
  isDigit_fraction _ hc := absurd hc List.not_mem_nil
  isExponent := .none

/-! ### Characters -/

theorem isNumberChar_of_mem_text {c : Char} (h : c ∈ ℓ.text) : IsNumberChar c := by
  rcases List.mem_append.mp h with hsign | hunsigned
  · cases hnegative : ℓ.negative with
    | false =>
        rw [hnegative] at hsign
        cases hsign
    | true =>
        rw [hnegative] at hsign
        rw [List.mem_singleton.mp hsign]
        exact Or.inr (by decide)
  rcases List.mem_append.mp hunsigned with hwhole | hrest
  · exact Or.inl (ℓ.isDigit_whole c hwhole)
  rcases List.mem_append.mp hrest with hfraction | hexponent
  · unfold Numeral.fractionText at hfraction
    split at hfraction
    · cases hfraction
    · rcases List.mem_cons.mp hfraction with rfl | hdigit
      · exact Or.inr (by decide)
      · exact Or.inl (ℓ.isDigit_fraction c hdigit)
  · exact ℓ.isExponent.isNumberChar_of_mem hexponent

theorem text_ne_nil : ℓ.text ≠ [] := by
  intro hnil
  have hunsigned := (List.append_eq_nil_iff.mp hnil).2
  exact ℓ.nonempty (List.append_eq_nil_iff.mp hunsigned).1

/-! ### In a document -/

theorem exponentSign_of_isDigit {c : Char} (h : c.isDigit = true) (cs : List Char) :
    Json.Token.exponentSign (c :: cs) = (false, c :: cs) := by
  unfold Json.Token.exponentSign
  split
  · rename_i hminus
    cases hminus
    exact absurd h (by decide)
  · rename_i hplus
    cases hplus
    exact absurd h (by decide)
  · rfl

/-- Both readers of exponents agree. -/
theorem exponent?_eq {exponent : List Char} (h : IsExponent exponent) {rest : List Char}
    (hrest : Json.Token.Delimits rest) :
    Json.Token.exponent? (exponent ++ rest) = some (exponentValue exponent, rest) := by
  cases h with
  | none => exact Json.Token.exponent?_exponentText none hrest
  | @digits letter sign digits isLetter isSign nonempty all =>
      have hletter : (letter == 'e' || letter == 'E') = true := by
        rcases isLetter with rfl | rfl <;> rfl
      obtain ⟨htake, hdrop⟩ := Json.Token.takeWhile_append_of_delimits all
        fun c hc => (hrest c hc).1
      have hne : digits.isEmpty = false := by simpa using nonempty
      have hread : readNat? digits = some (ofDigits digits) :=
        readNat?_eq_some_iff.mpr ⟨nonempty, all, rfl⟩
      have hvalue : exponentValue (letter :: (sign ++ digits)) = readInt? (sign ++ digits) := by
        simp only [exponentValue, Decimal.readExponent?, hletter, List.isEmpty_cons,
          Bool.false_eq_true, if_false, if_true]
      have hscan : ∀ (negative : Bool) (tail : List Char),
          Json.Token.exponentSign tail = (negative, digits ++ rest) →
          Json.Token.exponent? (letter :: tail) =
            some (some (if negative then -Int.ofNat (ofDigits digits) else
              Int.ofNat (ofDigits digits)), rest) := by
        intro negative tail hsign
        simp only [Json.Token.exponent?, hletter, hsign, htake, hdrop, hne, Bool.false_eq_true,
          if_false, if_true]
      rw [hvalue]
      rcases isSign with rfl | rfl | rfl
      · obtain ⟨d, ds, rfl⟩ := List.exists_cons_of_ne_nil nonempty
        have hd : d.isDigit = true := all d List.mem_cons_self
        rw [List.nil_append, readInt?_of_isDigit hd, hread]
        exact hscan false _ (exponentSign_of_isDigit hd (ds ++ rest))
      · show _ = some ((readNat? digits).map Int.ofNat, rest)
        rw [hread]
        exact hscan false ('+' :: (digits ++ rest)) rfl
      · show _ = some ((readNat? digits).map fun n => -Int.ofNat n, rest)
        rw [hread]
        exact hscan true ('-' :: (digits ++ rest)) rfl

theorem scans : Json.Token.Scans ℓ.text [.number ℓ.numeral] := by
  have hwritable := ℓ.isWritable_numeral
  refine Json.Token.scans_signed (n := ℓ.numeral)
    (Json.Token.exists_digit_cons hwritable _) fun rest hrest => ?_
  refine Json.Token.number?_of_exponent hwritable (exponent?_eq ℓ.isExponent hrest) ?_
  intro c hc
  cases hexponent : ℓ.exponent with
  | nil =>
      rw [hexponent] at hc
      exact ⟨(hrest c hc).1, (hrest c hc).2.2⟩
  | cons letter others =>
      have hletters := ℓ.isExponent
      rw [hexponent] at hc hletters
      cases hc
      cases hletters with
      | digits isLetter _ _ _ => rcases isLetter with rfl | rfl <;> decide

/-! ### In plain text -/

theorem isNumber : IsNumber (ℓ.whole ++ Numeral.fractionText ℓ.fraction) ℓ.exponent := by
  obtain ⟨hnumber, -⟩ := isNumber_of_digits ℓ.nonempty ℓ.isDigit_whole ℓ.isDigit_fraction
  exact ⟨hnumber.nonempty, hnumber.numeral, ℓ.isExponent⟩

theorem readFloat?_of_isDigit {c : Char} (h : c.isDigit = true) (cs : List Char) :
    Decimal.readFloat? (c :: cs) = Decimal.readUnsigned? (c :: cs) := by
  unfold Decimal.readFloat?
  split
  · rename_i hplus
    cases hplus
    exact absurd h (by decide)
  · rename_i hminus
    cases hminus
    exact absurd h (by decide)
  · rfl

/-- **A literal is read as a number.** -/
theorem isSome_readFloat? : (Decimal.readFloat? ℓ.text).isSome = true := by
  obtain ⟨hnumber, hreadable⟩ :=
    isNumber_of_digits ℓ.nonempty ℓ.isDigit_whole ℓ.isDigit_fraction
  obtain ⟨c, cs, htext, hdigit⟩ := Json.Token.exists_digit_cons ℓ.isWritable_numeral
    (Numeral.fractionText ℓ.fraction ++ ℓ.exponent)
  have hread : (Decimal.readFloat? ℓ.unsignedText).isSome = true := by
    rw [unsignedText, ← List.append_assoc]
    exact (Decimal.isSome_readFloat?_iff ℓ.isNumber).mpr hreadable
  have hunsigned : Decimal.readFloat? ℓ.unsignedText = Decimal.readUnsigned? ℓ.unsignedText := by
    rw [show ℓ.unsignedText = c :: cs from htext]
    exact readFloat?_of_isDigit hdigit cs
  cases hnegative : ℓ.negative with
  | false =>
      rw [text, hnegative]
      exact hread
  | true =>
      rw [text, hnegative]
      show ((Decimal.readUnsigned? ℓ.unsignedText).map fun x => -x).isSome = true
      rw [Option.isSome_map, ← hunsigned]
      exact hread

end Literal

end ChartScript
