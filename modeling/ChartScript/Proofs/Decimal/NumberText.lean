/-
The texts of numbers, and which of them are numerals.

A number text is a mantissa of digits and points with an exponent that may be empty; that is
what arithmetic text is cut by, and `2..5` is as good a number text as `2.5`.  It reads as a
number only if its mantissa is readable: at most one point, and a digit on either side of it.
`isSome_readFloat?_iff` proves that this is all there is to it, whatever the exponent.

The mantissa is split at its points.  In front of the first point stands the whole part,
behind it the fraction, and a second point is where reading fails.
-/
import ChartScript.Arithmetic.Token
import ChartScript.Proofs.Text.Rows

namespace ChartScript

open Text

/-- An exponent: nothing, or a letter, perhaps a sign, and digits. -/
inductive IsExponent : List Char → Prop where
  | none : IsExponent []
  | digits {letter : Char} {sign digits : List Char} (isLetter : letter = 'e' ∨ letter = 'E')
      (isSign : sign = [] ∨ sign = ['+'] ∨ sign = ['-']) (nonempty : digits ≠ [])
      (all : ∀ c ∈ digits, c.isDigit = true) : IsExponent (letter :: (sign ++ digits))

/-- The two parts of a number text. -/
structure IsNumber (mantissa exponent : List Char) : Prop where
  nonempty : mantissa ≠ []
  numeral : ∀ c ∈ mantissa, Token.isNumeral c = true
  exponent : IsExponent exponent

/-- A mantissa with at most one point and at least one digit. -/
structure IsReadable (mantissa : List Char) : Prop where
  points : mantissa.count '.' ≤ 1
  digit : ∃ c ∈ mantissa, c.isDigit = true

/-! ### Characters -/

/-- A character that numbers are written with. -/
def IsNumberChar (c : Char) : Prop :=
  c.isDigit = true ∨ c ∈ ['+', '-', '.', 'e', 'E']

theorem IsNumberChar.isBlank {c : Char} (h : IsNumberChar c) : isBlank c = false := by
  rcases h with hdigit | hother
  · exact isBlank_of_isDigit hdigit
  · simp only [List.mem_cons, List.not_mem_nil, or_false] at hother
    rcases hother with rfl | rfl | rfl | rfl | rfl <;> rfl

theorem IsExponent.isNumberChar_of_mem {exponent : List Char} (h : IsExponent exponent) {c : Char}
    (hc : c ∈ exponent) : IsNumberChar c := by
  cases h with
  | none => cases hc
  | digits isLetter isSign _ all =>
      rcases List.mem_cons.mp hc with rfl | hc
      · rcases isLetter with rfl | rfl <;> exact Or.inr (by decide)
      rcases List.mem_append.mp hc with hsign | hdigits
      · rcases isSign with rfl | rfl | rfl
        · cases hsign
        · rw [List.mem_singleton.mp hsign]
          exact Or.inr (by decide)
        · rw [List.mem_singleton.mp hsign]
          exact Or.inr (by decide)
      · exact Or.inl (all c hdigits)

/-! ### Whole numbers -/

/-- A whole number is read from digits and from nothing else. -/
theorem readNat?_eq_some_iff {cs : List Char} {n : Nat} :
    readNat? cs = some n ↔ cs ≠ [] ∧ (∀ c ∈ cs, c.isDigit = true) ∧ ofDigits cs = n := by
  rw [readNat?]
  by_cases hbad : (cs.isEmpty || !cs.all Char.isDigit) = true
  · rw [if_pos hbad]
    refine iff_of_false (by simp) ?_
    rintro ⟨hne, hall, -⟩
    have hempty : cs.isEmpty = false := by simp [hne]
    rw [hempty, List.all_eq_true.mpr hall] at hbad
    cases hbad
  · rw [if_neg hbad, Option.some_inj]
    simp only [Bool.or_eq_true, List.isEmpty_iff, Bool.not_eq_true', not_or,
      Bool.not_eq_false, List.all_eq_true] at hbad
    exact ⟨fun h => ⟨hbad.1, hbad.2, h⟩, fun h => h.2.2⟩

/-! ### Exponents -/

/-- A text that starts with a digit has no sign. -/
theorem readInt?_of_isDigit {c : Char} (h : c.isDigit = true) (cs : List Char) :
    readInt? (c :: cs) = (readNat? (c :: cs)).map Int.ofNat := by
  unfold readInt?
  split
  · rename_i hplus
    cases hplus
    exact absurd h (by decide)
  · rename_i hminus
    cases hminus
    exact absurd h (by decide)
  · rfl

/-- Digits behind a sign that may be missing are an integer. -/
theorem isSome_readInt? {sign digits : List Char}
    (isSign : sign = [] ∨ sign = ['+'] ∨ sign = ['-']) (nonempty : digits ≠ [])
    (all : ∀ c ∈ digits, c.isDigit = true) : (readInt? (sign ++ digits)).isSome = true := by
  have hread : (readNat? digits).isSome = true :=
    Option.isSome_of_eq_some (readNat?_eq_some_iff.mpr ⟨nonempty, all, rfl⟩)
  rcases isSign with rfl | rfl | rfl
  · obtain ⟨d, ds, rfl⟩ := List.exists_cons_of_ne_nil nonempty
    rw [List.nil_append, readInt?_of_isDigit (all d List.mem_cons_self)]
    rwa [Option.isSome_map]
  · show ((readNat? digits).map Int.ofNat).isSome = true
    rwa [Option.isSome_map]
  · show ((readNat? digits).map fun n => -Int.ofNat n).isSome = true
    rwa [Option.isSome_map]

namespace IsExponent

theorem takeWhile_isDigit {cs : List Char} (h : IsExponent cs) :
    cs.takeWhile Char.isDigit = [] := by
  cases h with
  | none => rfl
  | digits isLetter _ _ _ => rcases isLetter with rfl | rfl <;> rfl

theorem dropWhile_isDigit {cs : List Char} (h : IsExponent cs) :
    cs.dropWhile Char.isDigit = cs := by
  have happ : cs.takeWhile Char.isDigit ++ cs.dropWhile Char.isDigit = cs :=
    List.takeWhile_append_dropWhile
  rwa [h.takeWhile_isDigit, List.nil_append] at happ

/-- An exponent does not start with a point. -/
theorem ne_point {cs : List Char} (h : IsExponent cs) (after : List Char) :
    cs ≠ '.' :: after := by
  rintro rfl
  cases h with
  | digits isLetter _ _ _ => rcases isLetter with h | h <;> cases h

theorem isSome_readExponent? {cs : List Char} (h : IsExponent cs) :
    (Decimal.readExponent? cs).isSome = true := by
  cases h with
  | none => rfl
  | digits isLetter isSign nonempty all =>
      have hread := isSome_readInt? isSign nonempty all
      rcases isLetter with rfl | rfl
      · simpa [Decimal.readExponent?] using hread
      · simpa [Decimal.readExponent?] using hread

end IsExponent

/-! ### Mantissas -/

/-- Digits and the point come before all letters. -/
theorem toNat_le_of_isNumeral {c : Char} (h : Token.isNumeral c = true) :
    c.toNat ≤ '9'.toNat := by
  rcases Bool.or_eq_true_iff.mp h with hdigit | hpoint
  · exact (Char.isDigit_iff_toNat.mp hdigit).2
  · rw [beq_iff_eq.mp hpoint]
    decide

/-- Digits and points are digits alone, or digits in front of a first point. -/
theorem numeral_cases {cs : List Char} (h : ∀ c ∈ cs, Token.isNumeral c = true) :
    ∃ digits, (∀ c ∈ digits, c.isDigit = true) ∧
      (cs = digits ∨ ∃ after, cs = digits ++ '.' :: after ∧
        ∀ c ∈ after, Token.isNumeral c = true) := by
  induction cs with
  | nil => exact ⟨[], by simp, .inl rfl⟩
  | cons c cs ih =>
      obtain ⟨hc, hcs⟩ := List.forall_mem_cons.mp h
      by_cases hpoint : c = '.'
      · rw [hpoint]
        exact ⟨[], by simp, .inr ⟨cs, rfl, hcs⟩⟩
      have hdigit : c.isDigit = true := by
        simpa [Token.isNumeral, hpoint] using hc
      obtain ⟨digits, hdigits, hcases⟩ := ih hcs
      refine ⟨c :: digits, List.forall_mem_cons.mpr ⟨hdigit, hdigits⟩, ?_⟩
      rcases hcases with rfl | ⟨after, rfl, hafter⟩
      · exact .inl rfl
      · exact .inr ⟨after, rfl, hafter⟩

theorem count_point_of_digits {digits : List Char} (h : ∀ c ∈ digits, c.isDigit = true) :
    digits.count '.' = 0 := by
  refine List.count_eq_zero.mpr fun hmem => ?_
  exact absurd (h '.' hmem) (by decide)

theorem exists_digit_iff {digits : List Char} (h : ∀ c ∈ digits, c.isDigit = true) :
    (∃ c ∈ digits, c.isDigit = true) ↔ digits ≠ [] := by
  constructor
  · rintro ⟨c, hc, -⟩ rfl
    cases hc
  · intro hne
    exact ⟨digits.head hne, List.head_mem hne, h _ (List.head_mem hne)⟩

namespace Decimal

variable {whole after fraction exponent : List Char}

/-- A text without a point reads if there are digits at its front. -/
theorem isSome_read?_of_digits (hwhole : ∀ c ∈ whole, c.isDigit = true)
    (hexponent : IsExponent exponent) :
    (read? (whole ++ exponent)).isSome = true ↔ whole ≠ [] := by
  have htake : (whole ++ exponent).takeWhile Char.isDigit = whole := by
    rw [List.takeWhile_append_of_pos hwhole, hexponent.takeWhile_isDigit, List.append_nil]
  have hdrop : (whole ++ exponent).dropWhile Char.isDigit = exponent := by
    rw [List.dropWhile_append_of_pos hwhole, hexponent.dropWhile_isDigit]
  have hread := hexponent.isSome_readExponent?
  simp only [read?, htake, hdrop]
  split
  · exact absurd rfl (hexponent.ne_point _)
  · by_cases hempty : whole = []
    · simp [hempty]
    · simp [hempty, hread]

/-- A text with a point reads if there are digits around the point and an exponent behind
them. -/
theorem isSome_read?_of_point (hwhole : ∀ c ∈ whole, c.isDigit = true) :
    (read? (whole ++ '.' :: after)).isSome = true ↔
      (whole ≠ [] ∨ after.takeWhile Char.isDigit ≠ []) ∧
        (readExponent? (after.dropWhile Char.isDigit)).isSome = true := by
  have htake : (whole ++ '.' :: after).takeWhile Char.isDigit = whole := by
    rw [List.takeWhile_append_of_pos hwhole]
    exact List.append_nil whole
  have hdrop : (whole ++ '.' :: after).dropWhile Char.isDigit = '.' :: after := by
    rw [List.dropWhile_append_of_pos hwhole]
    rfl
  simp only [read?, htake, hdrop]
  have hempty : (whole.isEmpty && (after.takeWhile Char.isDigit).isEmpty) = true ↔
      ¬(whole ≠ [] ∨ after.takeWhile Char.isDigit ≠ []) := by
    simp only [Bool.and_eq_true, List.isEmpty_iff, not_or, Decidable.not_not]
  by_cases hsome : whole ≠ [] ∨ after.takeWhile Char.isDigit ≠ []
  · rw [if_neg fun he => hempty.mp he hsome, Option.isSome_map]
    exact (and_iff_right hsome).symm
  · rw [if_pos (hempty.mpr hsome)]
    exact iff_of_false Bool.false_ne_true fun h => hsome h.1

/-- A mantissa with one point is readable if a digit stands on either side of it. -/
theorem isReadable_of_point (hwhole : ∀ c ∈ whole, c.isDigit = true)
    (hfraction : ∀ c ∈ fraction, c.isDigit = true) :
    IsReadable (whole ++ '.' :: fraction) ↔ whole ≠ [] ∨ fraction ≠ [] := by
  have hcount : (whole ++ '.' :: fraction).count '.' ≤ 1 := by
    have hw := count_point_of_digits hwhole
    have hf := count_point_of_digits hfraction
    rw [List.count_append, List.count_cons_self]
    omega
  rw [← exists_digit_iff hwhole, ← exists_digit_iff hfraction]
  constructor
  · rintro ⟨-, c, hc, hdigit⟩
    rcases List.mem_append.mp hc with hw | hf
    · exact .inl ⟨c, hw, hdigit⟩
    · rcases List.mem_cons.mp hf with rfl | hf
      · exact absurd hdigit (by decide)
      · exact .inr ⟨c, hf, hdigit⟩
  · rintro (⟨c, hc, hdigit⟩ | ⟨c, hc, hdigit⟩)
    · exact ⟨hcount, c, List.mem_append_left _ hc, hdigit⟩
    · exact ⟨hcount, c, List.mem_append_right _ (List.mem_cons_of_mem _ hc), hdigit⟩

/-- A number text is a numeral exactly if its mantissa is readable. -/
theorem isSome_read?_iff {mantissa : List Char} (h : IsNumber mantissa exponent) :
    (read? (mantissa ++ exponent)).isSome = true ↔ IsReadable mantissa := by
  obtain ⟨whole, hwhole, hcases⟩ := numeral_cases h.numeral
  have hnone := count_point_of_digits hwhole
  rcases hcases with rfl | ⟨after, rfl, hafter⟩
  · rw [isSome_read?_of_digits hwhole h.exponent]
    constructor
    · intro hne
      exact ⟨by omega, (exists_digit_iff hwhole).mpr hne⟩
    · intro _
      exact h.nonempty
  rw [List.append_assoc, List.cons_append, isSome_read?_of_point hwhole]
  obtain ⟨fraction, hfraction, hcases⟩ := numeral_cases hafter
  rcases hcases with rfl | ⟨tail, rfl, -⟩
  · rw [List.takeWhile_append_of_pos hfraction, List.dropWhile_append_of_pos hfraction,
      h.exponent.takeWhile_isDigit, h.exponent.dropWhile_isDigit, List.append_nil,
      isReadable_of_point hwhole hfraction]
    exact and_iff_left h.exponent.isSome_readExponent?
  · -- The fraction ends at the second point, which starts no exponent.
    have hdrop : (fraction ++ '.' :: tail ++ exponent).dropWhile Char.isDigit =
        '.' :: (tail ++ exponent) := by
      rw [List.append_assoc, List.dropWhile_append_of_pos hfraction]
      rfl
    rw [hdrop]
    constructor
    · rintro ⟨-, hread⟩
      exact absurd hread (by simp [readExponent?])
    · rintro ⟨hpoints, -⟩
      rw [List.count_append, List.count_cons_self, List.count_append,
        List.count_cons_self] at hpoints
      omega

theorem toLower_of_isNumeral {c : Char} (h : Token.isNumeral c = true) : c.toLower = c := by
  unfold Char.toLower
  refine dif_neg fun hupper => ?_
  have hge : 'A'.toNat ≤ c.toNat := UInt32.le_iff_toNat_le.mp hupper.1
  exact absurd (Nat.le_trans hge (toNat_le_of_isNumeral h)) (by decide)

/-- A text that starts with a digit or a point is no word. -/
theorem isWord_of_isNumeral {c : Char} (h : Token.isNumeral c = true) (cs : List Char)
    (word : String) {first : Char} {others : List Char} (hword : word.toList = first :: others)
    (hfirst : Token.isNumeral first = false) : isWord word (c :: cs) = false := by
  have hne : c ≠ first := by
    rintro rfl
    rw [h] at hfirst
    cases hfirst
  simp [isWord, hword, toLower_of_isNumeral h, hne]

/-- A number text has no sign and is no word, so its numeral alone counts. -/
theorem readFloat?_of_isNumber {mantissa : List Char} (h : IsNumber mantissa exponent) :
    readFloat? (mantissa ++ exponent) = (read? (mantissa ++ exponent)).map toFloat := by
  obtain ⟨c, rest, rfl⟩ := List.exists_cons_of_ne_nil h.nonempty
  have hc : Token.isNumeral c = true := h.numeral c (by simp)
  have hinf := isWord_of_isNumeral hc (rest ++ exponent) "inf" rfl rfl
  have hinfinity := isWord_of_isNumeral hc (rest ++ exponent) "infinity" rfl rfl
  have hnan := isWord_of_isNumeral hc (rest ++ exponent) "nan" rfl rfl
  rw [List.cons_append]
  unfold readFloat?
  split
  · rename_i hplus
    rw [(List.cons.inj hplus).1] at hc
    exact absurd hc (by decide)
  · rename_i hminus
    rw [(List.cons.inj hminus).1] at hc
    exact absurd hc (by decide)
  · simp [readUnsigned?, hinf, hinfinity, hnan]

/-- **A number text reads exactly if its mantissa is readable.** -/
theorem isSome_readFloat?_iff {mantissa : List Char} (h : IsNumber mantissa exponent) :
    (readFloat? (mantissa ++ exponent)).isSome = true ↔ IsReadable mantissa := by
  rw [readFloat?_of_isNumber h, Option.isSome_map]
  exact isSome_read?_iff h

end Decimal

end ChartScript
