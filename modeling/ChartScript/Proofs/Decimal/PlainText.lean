/-
The texts of numbers in messages and listings.

Such a text has every digit in its place: no exponent, digits in front of a point if there
is one, and digits behind it.  A number that is finite and has no sign is therefore a number
text, and one that an expression can be read from.
-/
import ChartScript.Proofs.Decimal.NumberText
import ChartScript.Proofs.Json.Number

namespace ChartScript

open Text

/-- The digits of a number, without an exponent. -/
theorem Layout.exponent_plain (x : Float) : (plain.numeral x).exponent = none := by
  have hpositional : ∀ negative d, (plain.positional negative d).exponent = none := by
    intro negative d
    unfold positional
    simp only
    split
    · rfl
    · split
      · rfl
      · rfl
  unfold numeral
  simp only
  split
  · exact hpositional _ _
  · exact hpositional _ _

/-- The sign of a number is that of its text. -/
theorem Layout.negative_numeral (layout : Layout) (x : Float) :
    (layout.numeral x).negative = decide (2 ^ 63 ≤ x.toBits.toNat) := by
  have hpositional : ∀ negative d, (layout.positional negative d).negative = negative := by
    intro negative d
    unfold positional
    simp only
    split
    · rfl
    · split
      · rfl
      · rfl
  unfold numeral
  simp only
  split
  · exact hpositional _ _
  · split
    · exact hpositional _ _
    · rfl

/-- Neither infinite nor undefined. -/
theorem not_isNaN_of_isFinite {x : Float} (h : x.isFinite = true) :
    x.isNaN = false ∧ x.isInf = false := by
  replace h : x.toModel.unpack.isFinite = true := h
  show x.toModel.unpack.isNaN = false ∧ x.toModel.unpack.isInf = false
  cases hu : x.toModel.unpack with
  | notANumber => rw [hu] at h; cases h
  | infinity s => rw [hu] at h; cases h
  | zero s => exact ⟨rfl, rfl⟩
  | finite s m e hm => exact ⟨rfl, rfl⟩

/-- The text of a finite number is digits behind its sign, with a point between them if there is
a fraction. -/
theorem plainText_signedDigits {x : Float} (hfinite : x.isFinite = true) :
    ∃ whole fraction, (plainText x).toList =
        (if 2 ^ 63 ≤ x.toBits.toNat then ['-'] else []) ++
          (whole ++ Numeral.fractionText fraction) ∧
      whole ≠ [] ∧ (∀ c ∈ whole, c.isDigit = true) ∧ ∀ c ∈ fraction, c.isDigit = true := by
  obtain ⟨hnumber, hbounded⟩ := not_isNaN_of_isFinite hfinite
  have htext : (plainText x).toList = (Layout.plain.numeral x).text := by
    simp only [plainText, hnumber, hbounded, Bool.false_eq_true, if_false, String.toList_ofList]
  have hwritable := Layout.isWritable_numeral Layout.plain x
  refine ⟨(Layout.plain.numeral x).whole, (Layout.plain.numeral x).fraction, ?_,
    hwritable.nonempty, hwritable.whole, hwritable.fraction⟩
  rw [htext, Numeral.text_eq, Layout.negative_numeral, Numeral.unsignedText,
    Layout.exponent_plain]
  simp [Numeral.exponentText]

/-- **The text of a finite number without a sign is digits**, with a point between them if
there is a fraction. -/
theorem plainText_digits {x : Float} (hfinite : x.isFinite = true)
    (hsign : x.toBits.toNat < 2 ^ 63) :
    ∃ whole fraction, (plainText x).toList = whole ++ Numeral.fractionText fraction ∧
      whole ≠ [] ∧ (∀ c ∈ whole, c.isDigit = true) ∧ ∀ c ∈ fraction, c.isDigit = true := by
  obtain ⟨whole, fraction, htext, hdigits⟩ := plainText_signedDigits hfinite
  rw [if_neg (Nat.not_le.mpr hsign), List.nil_append] at htext
  exact ⟨whole, fraction, htext, hdigits⟩

/-- Digits with a point between them are a mantissa that can be read. -/
theorem isNumber_of_digits {whole fraction : List Char} (hne : whole ≠ [])
    (hwhole : ∀ c ∈ whole, c.isDigit = true) (hfraction : ∀ c ∈ fraction, c.isDigit = true) :
    IsNumber (whole ++ Numeral.fractionText fraction) [] ∧
      IsReadable (whole ++ Numeral.fractionText fraction) := by
  have hnumeral : ∀ c, c.isDigit = true → Token.isNumeral c = true := by
    intro c hc
    rw [Token.isNumeral, hc]
    rfl
  unfold Numeral.fractionText
  by_cases hempty : fraction.isEmpty = true
  · rw [if_pos hempty, List.append_nil]
    refine ⟨⟨hne, fun c hc => hnumeral c (hwhole c hc), .none⟩, ?_⟩
    have hcount := count_point_of_digits hwhole
    exact ⟨by omega, (exists_digit_iff hwhole).mpr hne⟩
  · rw [if_neg hempty]
    refine ⟨⟨by simp [hne], ?_, .none⟩, ?_⟩
    · intro c hc
      rcases List.mem_append.mp hc with hfront | hback
      · exact hnumeral c (hwhole c hfront)
      · rcases List.mem_cons.mp hback with rfl | hback
        · rfl
        · exact hnumeral c (hfraction c hback)
    · exact (Decimal.isReadable_of_point hwhole hfraction).mpr (Or.inl hne)

end ChartScript
