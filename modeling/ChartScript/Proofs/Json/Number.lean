/-
The numbers of JSON documents.

Integers and finite floating-point numbers are written so that JSON can read them: the whole
part has no superfluous zero in front, since the coefficient of a number that is not zero is
not zero either.  An integer of sixty-four bits reads back as itself.
-/
import ChartScript.Decimal.Layout
import ChartScript.Proofs.Decimal.Binary
import ChartScript.Proofs.Json.Scanning

namespace ChartScript

open Text

/-! ### Digits -/

theorem digits_ne_nil (n : Nat) : digits n ≠ [] :=
  Nat.toDigits_ne_nil

/-- The first digit of a number that is not zero is not a zero. -/
theorem head?_digits_ne {n : Nat} (h : n ≠ 0) : (digits n).head? ≠ some '0' := by
  induction n using Nat.strongRecOn with
  | ind n ih =>
      by_cases hsmall : n < 10
      · have hdigit : ∀ m, m < 10 → m ≠ 0 → (digits m).head? ≠ some '0' := by decide
        exact hdigit n hsmall h
      · have hfront : digits n = digits (n / 10) ++ [Nat.digitChar (n % 10)] :=
          Nat.toDigits_of_base_le (by decide) (by omega)
        rw [hfront, List.head?_append_of_ne_nil _ (digits_ne_nil _)]
        exact ih (n / 10) (by omega) (by omega)

/-- Digits of a number have a zero in front only if they are that zero. -/
theorem digits_eq_zero_of_head? {n : Nat} (h : (digits n).head? = some '0') : digits n = ['0'] := by
  by_cases hzero : n = 0
  · rw [hzero]
    rfl
  · exact absurd h (head?_digits_ne hzero)

theorem isDigit_of_mem_replicate {n : Nat} {c : Char} (h : c ∈ List.replicate n '0') :
    c.isDigit = true := by
  rw [List.eq_of_mem_replicate h]
  rfl

/-! ### Writable numerals -/

theorem Numeral.isWritable_ofInt (i : Int) : (Numeral.ofInt i).IsWritable where
  nonempty := digits_ne_nil _
  whole := fun _ hc => Json.Token.isDigit_of_mem_digits hc
  zero := digits_eq_zero_of_head?
  fraction := fun _ hc => absurd hc List.not_mem_nil

namespace Layout

/-- Digits in their places can be written, unless superfluous zeros stand in front. -/
theorem isWritable_positional (layout : Layout) (negative : Bool) {d : Decimal}
    (h : d.coefficient ≠ 0 ∨ d.exponent = 0) : (layout.positional negative d).IsWritable := by
  have hdigits : ∀ c ∈ digits d.coefficient, c.isDigit = true :=
    fun _ hc => Json.Token.isDigit_of_mem_digits hc
  have hne := digits_ne_nil d.coefficient
  unfold positional
  simp only
  split
  · rename_i hexponent
    refine ⟨by simp [hne], ?_, ?_, ?_⟩
    · intro c hc
      rcases List.mem_append.mp hc with hfront | hzero
      · exact hdigits c hfront
      · exact isDigit_of_mem_replicate hzero
    · intro hhead
      rw [List.head?_append_of_ne_nil _ hne] at hhead
      rcases h with hcoefficient | hplaces
      · exact absurd hhead (head?_digits_ne hcoefficient)
      · simp [hplaces, digits_eq_zero_of_head? hhead]
    · intro c hc
      cases hpoint : layout.keepsPoint with
      | false => simp [hpoint] at hc
      | true =>
          simp only [hpoint, if_true, List.mem_singleton] at hc
          rw [hc]
          rfl
  · rename_i hexponent
    have hcoefficient : d.coefficient ≠ 0 := by
      rcases h with hcoefficient | hplaces
      · exact hcoefficient
      · omega
    split
    · rename_i hplaces
      have htake : (digits d.coefficient).take
          ((digits d.coefficient).length - (-d.exponent).toNat) ≠ [] := by
        intro hnil
        have hlength := congrArg List.length hnil
        simp only [List.length_take, List.length_nil] at hlength
        omega
      refine ⟨htake, fun c hc => hdigits c (List.mem_of_mem_take hc), ?_,
        fun c hc => hdigits c (List.mem_of_mem_drop hc)⟩
      intro hhead
      rw [List.head?_take, if_neg (by omega)] at hhead
      exact absurd hhead (head?_digits_ne hcoefficient)
    · refine ⟨List.cons_ne_nil _ _, ?_, fun _ => rfl, ?_⟩
      · intro c hc
        rw [List.mem_singleton.mp hc]
        rfl
      · intro c hc
        rcases List.mem_append.mp hc with hzero | hback
        · exact isDigit_of_mem_replicate hzero
        · exact hdigits c hback

/-- A digit in front of the point and the others behind it can be written. -/
theorem isWritable_scientific (negative : Bool) {d : Decimal} (h : d.coefficient ≠ 0) :
    (scientific negative d).IsWritable := by
  have hdigits : ∀ c ∈ digits d.coefficient, c.isDigit = true :=
    fun _ hc => Json.Token.isDigit_of_mem_digits hc
  refine ⟨?_, fun c hc => hdigits c (List.mem_of_mem_take hc), ?_,
    fun c hc => hdigits c (List.mem_of_mem_drop hc)⟩
  · simp [scientific, digits_ne_nil]
  · intro hhead
    simp only [scientific, List.head?_take] at hhead
    exact absurd hhead (head?_digits_ne h)

end Layout

namespace Decimal

theorem coefficient_strip {steps : Nat} {d : Decimal} (h : d.coefficient ≠ 0) :
    (strip steps d).coefficient ≠ 0 := by
  induction steps generalizing d with
  | zero => exact h
  | succ steps ih =>
      unfold strip
      split
      · rename_i hten
        simp only [Bool.and_eq_true, decide_eq_true_eq, bne_iff_ne] at hten
        refine ih ?_
        show d.coefficient / 10 ≠ 0
        omega
      · exact h

/-- Of two candidates one that passes is picked, if any does. -/
theorem passes_of_pick {p : Decimal → Bool} {low high d : Decimal} {preferLow : Bool}
    (h : (match p low, p high with
      | true, true => some (if preferLow then low else high)
      | true, false => some low
      | false, true => some high
      | false, false => none) = some d) : p d = true := by
  cases hlow : p low <;> cases hhigh : p high <;> rw [hlow, hhigh] at h
  · cases h
  · cases h
    exact hhigh
  · cases h
    exact hlow
  · cases h
    split
    · exact hlow
    · exact hhigh

/-- A numeral that reads back as a number that is not zero is not zero. -/
theorem coefficient_of_withDigits? {tie : Tie} {x : Float} {count : Nat} {d : Decimal}
    (hx : (x == Float.ofNat 0) = false) (h : withDigits? tie x count = some d) :
    d.coefficient ≠ 0 := by
  have hreads : (d.toFloat == Float.abs x) = true :=
    passes_of_pick (p := fun d => d.toFloat == Float.abs x) h
  intro hcoefficient
  rw [toFloat, if_pos hcoefficient, BEq.comm, Binary.beq_zero_iff] at hreads
  have hzero := (Binary.beq_zero_iff x).mpr (Binary.isZero_of_isZero_abs hreads)
  rw [hx] at hzero
  cases hzero

/-- The shortest numeral of a number that is not zero has a coefficient that is not zero. -/
theorem coefficient_shortest (tie : Tie) {x : Float} (h : (x == Float.ofNat 0) = false) :
    (shortest tie x).coefficient ≠ 0 := by
  unfold shortest
  split
  · rename_i d hfound
    obtain ⟨count, -, hcount⟩ := List.exists_of_findSome?_eq_some hfound
    exact coefficient_strip (coefficient_of_withDigits? h hcount)
  · have hnumerator : (fraction x).1 ≠ 0 := by
      intro hzero
      have hbeq := (Binary.beq_zero_iff x).mpr (Binary.isZero_of_fraction_eq_zero hzero)
      rw [h] at hbeq
      cases hbeq
    exact Nat.mul_ne_zero hnumerator (Nat.pos_iff_ne_zero.mp (Nat.pow_pos (by decide)))

end Decimal

/-- **Every number is written as a numeral that JSON can read.** -/
theorem Layout.isWritable_numeral (layout : Layout) (x : Float) : (layout.numeral x).IsWritable := by
  unfold numeral
  simp only
  split
  · exact isWritable_positional layout _ (Or.inr rfl)
  · rename_i hzero
    have hcoefficient := Decimal.coefficient_shortest layout.tie (Bool.not_eq_true _ ▸ hzero)
    split
    · exact isWritable_positional layout _ (Or.inl hcoefficient)
    · exact isWritable_scientific _ hcoefficient

/-! ### Integers -/

namespace Numeral

theorem ofDigits_digits (n : Nat) : ofDigits (digits n) = n :=
  Nat.ofDigitChars_ten_toDigits

/-- Digits only make a number larger. -/
theorem le_ofDigitChars (cs : List Char) (n : Nat) : n ≤ Nat.ofDigitChars 10 cs n := by
  induction cs generalizing n with
  | nil => simp
  | cons c cs ih =>
      rw [Nat.ofDigitChars_cons]
      have hrest := ih (10 * n + (c.toNat - '0'.toNat))
      omega

/-- Digits that fit are taken as they are. -/
theorem foldl_takeWhole {cs : List Char} {n : Nat} (h : Nat.ofDigitChars 10 cs n < significandLimit) :
    cs.foldl Significand.takeWhole ⟨n, 0, false⟩ = ⟨Nat.ofDigitChars 10 cs n, 0, false⟩ := by
  induction cs generalizing n with
  | nil => simp
  | cons c cs ih =>
      rw [Nat.ofDigitChars_cons] at h ⊢
      have hnext : (⟨n, 0, false⟩ : Significand).takeWhole c =
          ⟨10 * n + (c.toNat - '0'.toNat), 0, false⟩ := by
        have hfits : n * 10 + (c.toNat - 48) < significandLimit := by
          have hle := le_ofDigitChars cs (10 * n + (c.toNat - '0'.toNat))
          show n * 10 + (c.toNat - '0'.toNat) < significandLimit
          omega
        have hnot : ¬significandLimit ≤ n * 10 + (c.toNat - 48) := by omega
        simp [Significand.takeWhole, hnot, Nat.mul_comm]
      rw [List.foldl_cons, hnext, ih h]

variable (t : Int64)

theorem natAbs_toInt_le : t.toInt.natAbs ≤ 2 ^ 63 := by
  have hlow := Int64.le_toInt t
  have hhigh := Int64.toInt_lt t
  omega

/-- An integer of sixty-four bits is read as a finite number. -/
theorem isSome_toFloat?_ofInt : (ofInt t.toInt).toFloat?.isSome = true := by
  have hbound := natAbs_toInt_le t
  have hvalue : Nat.ofDigitChars 10 (digits t.toInt.natAbs) 0 = t.toInt.natAbs := ofDigits_digits _
  have hsignificand : (ofInt t.toInt).significand = ⟨t.toInt.natAbs, 0, false⟩ := by
    have hfits : Nat.ofDigitChars 10 (digits t.toInt.natAbs) 0 < significandLimit := by
      rw [hvalue, significandLimit]
      omega
    have hfold := foldl_takeWhole hfits
    rw [hvalue] at hfold
    simp only [significand, ofInt, hfold, List.foldl_nil]
  have habsolute : (ofInt t.toInt).absolute? = scale? t.toInt.natAbs 0 := by
    simp only [absolute?, hsignificand]
    rfl
  rw [toFloat?, Option.isSome_map, habsolute]
  exact Binary.isSome_scale?_zero (by omega)

theorem int64?_toInt : int64? t.toInt = some t := by
  rw [int64?, if_pos ⟨Int64.minValue_le_toInt t, Int64.toInt_le t⟩, Int64.ofInt_toInt]

/-- **An integer of sixty-four bits reads back as itself.** -/
theorem toInt64?_ofInt : (ofInt t.toInt).toInt64? = some t := by
  have hvalue : ofDigits (digits t.toInt.natAbs) = t.toInt.natAbs := ofDigits_digits _
  by_cases hneg : t.toInt < 0
  · have habs : -(t.toInt.natAbs : Int) = t.toInt := by omega
    have hzero : ((t.toInt.natAbs : Int) == 0) = false := by
      rw [beq_eq_false_iff_ne]
      omega
    simp only [toInt64?, isWhole, ofInt, hneg, hvalue, hzero, decide_true, habs]
    exact int64?_toInt t
  · have habs : (t.toInt.natAbs : Int) = t.toInt := by omega
    simp only [toInt64?, isWhole, ofInt, hneg, hvalue, decide_false, habs]
    exact int64?_toInt t

end Numeral

end ChartScript
