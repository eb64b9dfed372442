/-
Floating-point numbers as significands and powers of two.

A finite number is a zero or a significand below `2^53` times a power of two.  Two things are
needed of this form.  A number that is not zero stays so without its sign and has a fraction
with a positive numerator, so its numerals have no zero for a coefficient.  And numbers with
small exponents have products that are still finite; the bounds are generous, since no
product here comes near the limit.
-/
import Mathlib
import ChartScript.Decimal.Shortest
import ChartScript.Json.Number

namespace ChartScript

open Float.Model Float.Model.UnpackedFloat

namespace Binary

variable {x y : Float} {u : UnpackedFloat}

/-! ### Zeros -/

/-- Whether a number is a zero, with either sign. -/
def isZero : UnpackedFloat → Bool
  | .zero _ => true
  | _ => false

theorem unpack_ofNat_zero : (Float.ofNat 0).toModel.unpack = .zero .positive := rfl

/-- Being equal to zero is being a zero. -/
theorem beq_zero_iff (x : Float) : (x == Float.ofNat 0) = true ↔ isZero x.toModel.unpack = true := by
  show (x.toModel.unpack.compare (Float.ofNat 0).toModel.unpack == some .eq) = true ↔ _
  rw [unpack_ofNat_zero]
  cases x.toModel.unpack with
  | zero s => simp [UnpackedFloat.compare, isZero]
  | notANumber => simp [UnpackedFloat.compare, isZero]
  | infinity s => cases s <;> simp [UnpackedFloat.compare, isZero]
  | finite s m e h => cases s <;> simp [UnpackedFloat.compare, isZero]

/-- The significand and the exponent as they are stored. -/
theorem toNat_unpackExponent (b : BitVec 64) :
    (@unpackExponent Format.binary64 b).toNat = b.toNat / 2 ^ 52 % 2 ^ 11 := by
  simp [unpackExponent, Nat.shiftRight_eq_div_pow]

theorem toNat_unpackMantissa (b : BitVec 64) :
    (@unpackMantissa Format.binary64 b).toNat = b.toNat % 2 ^ 52 := by
  simp [unpackMantissa]

/-- A number with nothing stored but its sign is a zero. -/
theorem isZero_unpack_of_stored {b : BitVec 64} (hexponent : b.toNat / 2 ^ 52 % 2 ^ 11 = 0)
    (hmantissa : b.toNat % 2 ^ 52 = 0) :
    isZero (UnpackedFloat.unpack Format.binary64 b) = true := by
  have he : @unpackExponent Format.binary64 b = 0#_ :=
    BitVec.eq_of_toNat_eq (by rw [toNat_unpackExponent, hexponent]; rfl)
  have hm : @unpackMantissa Format.binary64 b = 0#_ :=
    BitVec.eq_of_toNat_eq (by rw [toNat_unpackMantissa, hmantissa]; rfl)
  unfold UnpackedFloat.unpack
  simp only [he, hm]
  rfl

/-- A fraction of nothing is that of a zero. -/
theorem isZero_of_fraction_eq_zero (h : (Decimal.fraction x).1 = 0) :
    isZero x.toModel.unpack = true := by
  have hstored : x.toBits.toNat / 2 ^ 52 % 2 ^ 11 = 0 ∧ x.toBits.toNat % 2 ^ 52 = 0 := by
    by_cases hbiased : x.toBits.toNat / 2 ^ 52 % 2 ^ 11 = 0
    · refine ⟨hbiased, ?_⟩
      simp only [Decimal.fraction, Nat.pow_eq, hbiased, if_true] at h
      rwa [if_neg (by decide)] at h
    · exfalso
      simp only [Decimal.fraction, Nat.pow_eq, hbiased, if_false] at h
      split at h
      · have hpos := Nat.mul_pos (show 0 < 2 ^ 52 + x.toBits.toNat % 2 ^ 52 by omega)
          (Nat.two_pow_pos (x.toBits.toNat / 2 ^ 52 % 2 ^ 11 - 1075))
        exact absurd h (Nat.pos_iff_ne_zero.mp hpos)
      · simp only at h
        omega
  exact isZero_unpack_of_stored hstored.1 hstored.2

/-! ### What is stored of a finite number -/

/-- The first bit of a significand is not stored unless the exponent is the least. -/
theorem toNat_implicit_append (m : BitVec 52) : (1#1 ++ m).toNat = 2 ^ 52 + m.toNat := by
  rw [BitVec.toNat_append, ← Nat.shiftLeft_add_eq_or_of_lt m.isLt]
  rfl

/-- A finite number that has been stored has a significand of fifty-three bits, with all of
them used unless the exponent is the least. -/
theorem shape_of_unpack {b : BitVec 64} {s : Sign} {m : Nat} {e : Int} {hm : 0 < m}
    (h : UnpackedFloat.unpack Format.binary64 b = .finite s m e hm) :
    m < 2 ^ 53 ∧ (2 ^ 52 ≤ m ∧ -1074 ≤ e ∧ e ≤ 971 ∨ m < 2 ^ 52 ∧ e = -1074) := by
  have hmantissa : (@unpackMantissa Format.binary64 b).toNat < 2 ^ 52 := BitVec.isLt _
  have hexponent : (@unpackExponent Format.binary64 b).toNat < 2 ^ 11 := BitVec.isLt _
  unfold UnpackedFloat.unpack at h
  simp only at h
  split at h
  · split at h <;> cases h
  · rename_i hlargest
    split at h
    · rename_i hleast
      split at h
      · cases h
      · cases h
        have hbias : ((@unpackExponent Format.binary64 b).toNat : Int) = 0 := by
          rw [hleast]
          rfl
        rw [hbias]
        refine ⟨by omega, Or.inr ⟨hmantissa, ?_⟩⟩
        decide
    · rename_i hleast
      cases h
      have hpositive : (@unpackExponent Format.binary64 b).toNat ≠ 0 :=
        fun hzero => hleast (BitVec.eq_of_toNat_eq hzero)
      have hbelow : (@unpackExponent Format.binary64 b).toNat ≠ 2047 :=
        fun hmax => hlargest (BitVec.eq_of_toNat_eq hmax)
      have hsignificand : (1#1 ++ @unpackMantissa Format.binary64 b).toNat =
          2 ^ 52 + (@unpackMantissa Format.binary64 b).toNat := toNat_implicit_append _
      rw [hsignificand]
      show _ ∧ (_ ∧ -1074 ≤ ((@unpackExponent Format.binary64 b).toNat : Int) - 1075 ∧
        ((@unpackExponent Format.binary64 b).toNat : Int) - 1075 ≤ 971 ∨ _)
      refine ⟨by omega, Or.inl ⟨by omega, by omega, by omega⟩⟩

/-! ### Packing -/

/-- The exponent of a finite number is at most `k`. -/
def IsBelow (k : Nat) : UnpackedFloat → Prop
  | .zero _ => True
  | .finite _ _ e _ => e ≤ k
  | _ => False

theorem IsBelow.mono {k n : Nat} (h : IsBelow k u) (hkn : k ≤ n) : IsBelow n u := by
  cases u with
  | zero s => trivial
  | finite s m e hm =>
      have he : e ≤ k := h
      show e ≤ n
      omega
  | infinity s => exact h
  | notANumber => exact h

/-- Parts that are stored with an exponent below the largest are those of a finite number. -/
theorem unpack_packComponents_cases (s : Sign) {e : BitVec 11} (he : e.toNat < 2047)
    (m : BitVec 52) :
    (e.toNat = 0 ∧ m.toNat = 0 ∧ ∃ t,
      UnpackedFloat.unpack Format.binary64 (packComponents Format.binary64 s e m) = .zero t) ∨
    (e.toNat = 0 ∧ m.toNat ≠ 0 ∧ ∃ t n hn,
      UnpackedFloat.unpack Format.binary64 (packComponents Format.binary64 s e m) =
        .finite t n (-1074) hn) ∨
    (e.toNat ≠ 0 ∧ ∃ t n hn,
      UnpackedFloat.unpack Format.binary64 (packComponents Format.binary64 s e m) =
        .finite t n (e.toNat - 1075) hn) := by
  have hlargest : e ≠ -1#_ := by
    intro h
    rw [h] at he
    exact absurd he (by decide)
  by_cases hleast : e.toNat = 0
  · have hzero : e = 0#_ := BitVec.eq_of_toNat_eq hleast
    by_cases hmantissa : m.toNat = 0
    · have hnothing : m = 0#_ := BitVec.eq_of_toNat_eq hmantissa
      refine Or.inl ⟨hleast, hmantissa, ?_⟩
      unfold UnpackedFloat.unpack
      simp only [unpackMantissa_packComponents, unpackExponent_packComponents]
      rw [if_neg hlargest, if_pos hzero, dif_pos hnothing]
      exact ⟨_, rfl⟩
    · have hsome : m ≠ 0#_ := fun h => hmantissa (by rw [h]; rfl)
      refine Or.inr (Or.inl ⟨hleast, hmantissa, ?_⟩)
      unfold UnpackedFloat.unpack
      simp only [unpackMantissa_packComponents, unpackExponent_packComponents]
      rw [if_neg hlargest, if_pos hzero, dif_neg hsome, hleast]
      exact ⟨_, _, Nat.pos_of_ne_zero hmantissa, rfl⟩
  · have hpositive : e ≠ 0#_ := fun h => hleast (by rw [h]; rfl)
    refine Or.inr (Or.inr ⟨hleast, ?_⟩)
    unfold UnpackedFloat.unpack
    simp only [unpackMantissa_packComponents, unpackExponent_packComponents]
    rw [if_neg hlargest, if_neg hpositive]
    exact ⟨_, _, by rw [toNat_implicit_append]; omega, rfl⟩

/-- A finite number that is not too large is stored in parts. -/
theorem pack_finite (s : Sign) {m : Nat} {e : Int} (hm : 0 < m) (he : e ≤ 971) :
    UnpackedFloat.pack Format.binary64 (.finite s m e hm) =
      packComponents Format.binary64 s
        (if m.log2 + 1 = 53 then BitVec.ofNat 11 (e + 1075).toNat else 0#11)
        (BitVec.ofNat 52 m) := by
  have hbias : (e + 1023 + 52).toNat = (e + 1075).toNat := by omega
  show (if 2 ^ 11 ≤ (e + 1023 + 52).toNat + 1 then packedInfinity Format.binary64 s
    else if m.log2 + 1 = 53 then
      packComponents Format.binary64 s (BitVec.ofNat 11 (e + 1023 + 52).toNat) (BitVec.ofNat 52 m)
    else packComponents Format.binary64 s 0#11 (BitVec.ofNat 52 m)) = _
  rw [if_neg (by omega), hbias]
  split <;> rfl

/-- The exponent of a number that is not too large fits. -/
theorem toNat_storedExponent {m : Nat} {e : Int} (he : e ≤ 971) :
    (if m.log2 + 1 = 53 then BitVec.ofNat 11 (e + 1075).toNat else 0#11).toNat =
      if m.log2 + 1 = 53 then (e + 1075).toNat else 0 := by
  split
  · rw [BitVec.toNat_ofNat, Nat.mod_eq_of_lt (by omega)]
  · rfl

/-- A number with a small exponent is stored as one. -/
theorem isBelow_unpack_pack {k : Nat} (hk : k ≤ 971) (h : IsBelow k u) :
    IsBelow k (UnpackedFloat.unpack Format.binary64 (UnpackedFloat.pack Format.binary64 u)) := by
  have hparts : ∀ (s : Sign) (e : BitVec 11) (m : BitVec 52), e.toNat < 2047 →
      (e.toNat : Int) - 1075 ≤ k →
      IsBelow k (UnpackedFloat.unpack Format.binary64 (packComponents Format.binary64 s e m)) := by
    intro s e m he hek
    rcases unpack_packComponents_cases s he m with
      ⟨-, -, t, hzero⟩ | ⟨-, -, t, n, hn, hsub⟩ | ⟨-, t, n, hn, hnormal⟩
    · rw [hzero]
      trivial
    · rw [hsub]
      show (-1074 : Int) ≤ k
      omega
    · rw [hnormal]
      exact hek
  cases u with
  | infinity s => exact absurd h id
  | notANumber => exact absurd h id
  | zero s => exact hparts s 0 0 (by decide) (by show (0 : Int) - 1075 ≤ k; omega)
  | finite s m e hm =>
      have he : e ≤ k := h
      have hfield := toNat_storedExponent (m := m) (show e ≤ 971 by omega)
      rw [pack_finite s hm (by omega)]
      refine hparts s _ _ ?_ ?_
      · rw [hfield]
        split <;> omega
      · rw [hfield]
        split <;> omega

/-- A number is a zero if it is one without its sign. -/
theorem isZero_of_isZero_abs (h : isZero (Float.abs x).toModel.unpack = true) :
    isZero x.toModel.unpack = true := by
  replace h : isZero (UnpackedFloat.unpack Format.binary64
    (UnpackedFloat.pack Format.binary64 x.toModel.unpack.abs)) = true := h
  cases hu : x.toModel.unpack with
  | zero s => rfl
  | infinity s =>
      rw [hu] at h
      cases s <;> exact absurd h (by decide)
  | notANumber =>
      rw [hu] at h
      exact absurd h (by decide)
  | finite s m e hm =>
      exfalso
      obtain ⟨hsignificand, hshape⟩ := shape_of_unpack hu
      have he : e ≤ 971 := by omega
      have hfield := toNat_storedExponent (m := m) he
      rw [hu] at h
      replace h : isZero (UnpackedFloat.unpack Format.binary64
        (UnpackedFloat.pack Format.binary64 (.finite .positive m e hm))) = true := h
      rw [pack_finite .positive hm he] at h
      have hsmall : (if m.log2 + 1 = 53 then BitVec.ofNat 11 (e + 1075).toNat else 0#11).toNat <
          2047 := by
        rw [hfield]
        split <;> omega
      rcases unpack_packComponents_cases .positive hsmall (BitVec.ofNat 52 m) with
        ⟨hexponent, hmantissa, -⟩ | ⟨-, -, t, n, hn, hsub⟩ | ⟨-, t, n, hn, hnormal⟩
      · -- The significand has its first bit in the exponent, or is stored as it is.
        rw [hfield] at hexponent
        rw [BitVec.toNat_ofNat] at hmantissa
        by_cases hnormal : 2 ^ 52 ≤ m
        · have hlog : m.log2 = 52 := (Nat.log2_eq_iff (by omega)).mpr ⟨hnormal, hsignificand⟩
          rw [if_pos (by omega)] at hexponent
          omega
        · rw [Nat.mod_eq_of_lt (by omega)] at hmantissa
          omega
      · rw [hsub] at h
        cases h
      · rw [hnormal] at h
        cases h

/-! ### Rounding -/

theorem mantissa_shiftRight_le (em : ExtendedMantissa) (n : Nat) :
    (em >>> n).mantissa ≤ em.mantissa := by
  induction n with
  | zero => exact Nat.le_refl _
  | succ n ih =>
      show (em >>> n).mantissa / 2 ≤ em.mantissa
      omega

theorem roundedMantissa_le (em : ExtendedMantissa) : em.roundedMantissa ≤ em.mantissa + 1 := by
  obtain ⟨m, r, s⟩ := em
  cases r <;> cases s <;>
    simp only [ExtendedMantissa.roundedMantissa, ExtendedMantissa.accuracy,
      Accuracy.roundToNearestEven] <;> omega

/-- Shifting to the target exponent raises the exponent by no more than the significand is
long. -/
theorem shiftToTargetExponent_le {m a k : Nat} {e : Int} (hm : m < 2 ^ a) (he : e ≤ k)
    (accuracy : Accuracy) :
    (shiftToTargetExponent Format.binary64 m e accuracy).1.mantissa ≤ m ∧
      (shiftToTargetExponent Format.binary64 m e accuracy).2 ≤ (a + k : Nat) := by
  constructor
  · have hstart : (ExtendedMantissa.ofMantissaAndAccuracy m accuracy).mantissa = m := by
      cases accuracy with
      | exact => rfl
      | inexact ordering => cases ordering <;> rfl
    have hshift := mantissa_shiftRight_le (ExtendedMantissa.ofMantissaAndAccuracy m accuracy)
      (Format.binary64.targetExponent (totalExponent m e) - e).toNat
    rwa [hstart] at hshift
  · have hlog : m.log2 ≤ a := by
      by_cases hzero : m = 0
      · rw [hzero]
        exact Nat.zero_le a
      · exact Nat.le_of_lt ((Nat.log2_lt hzero).mpr hm)
    have htarget : Format.binary64.targetExponent (totalExponent m e) =
        max ((m.log2 : Int) + 1 + e - 53) (-1074) := rfl
    show e + ((Format.binary64.targetExponent (totalExponent m e) - e).toNat : Int) ≤ _
    rw [htarget]
    omega

/-- A number that is rounded has an exponent not far above that in front. -/
theorem isBelow_roundWithAccuracy (s : Sign) {m a k : Nat} {e : Int} (hm : m < 2 ^ a)
    (he : e ≤ k) (accuracy : Accuracy) :
    IsBelow (2 * a + 1 + k) (roundWithAccuracy Format.binary64 s m e accuracy) := by
  obtain ⟨hmantissa, hexponent⟩ := shiftToTargetExponent_le hm he accuracy
  have hrounded := roundedMantissa_le (shiftToTargetExponent Format.binary64 m e accuracy).1
  have hpow : 2 ^ (a + 1) = 2 * 2 ^ a := Nat.pow_succ'
  have hagain := (shiftToTargetExponent_le
    (m := (shiftToTargetExponent Format.binary64 m e accuracy).1.roundedMantissa) (a := a + 1)
    (by omega) hexponent .exact).2
  unfold roundWithAccuracy
  simp only
  split
  · trivial
  · refine Int.le_trans hagain ?_
    omega

/-- A product of numbers with small exponents has a small exponent. -/
theorem isBelow_mul {j k : Nat} (hx : IsBelow j x.toModel.unpack) (hy : IsBelow k y.toModel.unpack)
    (hjk : 213 + (j + k) ≤ 971) : IsBelow (213 + (j + k)) (x * y).toModel.unpack := by
  refine isBelow_unpack_pack hjk ?_
  show IsBelow _ (UnpackedFloat.mul Format.binary64 x.toModel.unpack y.toModel.unpack)
  cases hux : x.toModel.unpack with
  | infinity s => rw [hux] at hx; exact absurd hx id
  | notANumber => rw [hux] at hx; exact absurd hx id
  | zero s =>
      cases huy : y.toModel.unpack with
      | infinity t => rw [huy] at hy; exact absurd hy id
      | notANumber => rw [huy] at hy; exact absurd hy id
      | zero t => trivial
      | finite t n f hn => trivial
  | finite s m e hm =>
      cases huy : y.toModel.unpack with
      | infinity t => rw [huy] at hy; exact absurd hy id
      | notANumber => rw [huy] at hy; exact absurd hy id
      | zero t => trivial
      | finite t n f hn =>
          rw [hux] at hx
          rw [huy] at hy
          have hproduct : m * n < 2 ^ 53 * 2 ^ 53 :=
            Nat.mul_lt_mul'' (shape_of_unpack hux).1 (shape_of_unpack huy).1
          rw [← Nat.pow_add] at hproduct
          have he : e ≤ j := hx
          have hf : f ≤ k := hy
          exact isBelow_roundWithAccuracy (s * t) hproduct (show e + f ≤ ((j + k : Nat) : Int) by omega)
            .exact

/-! ### Whole numbers -/

/-- One has its exponent below zero, as it is stored. -/
theorem isBelow_powerOfTen_zero : IsBelow 0 (Numeral.powerOfTen 0).toModel.unpack := by
  have hone : (Numeral.powerOfTen 0).toModel.unpack =
      .finite .positive (2 ^ 52) (-52) (by decide) := rfl
  rw [hone]
  show (-52 : Int) ≤ 0
  decide

/-- A whole number of sixty-four bits has a small exponent when its exponent is that of its
significand. -/
theorem isBelow_ofNat_unpacked {n : Nat} (h : n < 2 ^ 64) :
    IsBelow 233 (UnpackedFloat.ofNat Format.binary64 n) := by
  show IsBelow 233 (UnpackedFloat.normalize Format.binary64 (n : Int) 0 .positive)
  unfold UnpackedFloat.normalize
  split
  · rename_i hnegative
    rw [Int.compare_eq_lt] at hnegative
    omega
  · trivial
  · show IsBelow 233 (UnpackedFloat.round Format.binary64 .positive n 0)
    have htarget : Format.binary64.targetExponent (totalExponent n 0) =
        max ((n.log2 : Int) + 1 + 0 - 53) (-1074) := rfl
    unfold UnpackedFloat.round decreaseExponent
    simp only
    rw [htarget]
    have hshift : ((0 : Int) - max ((n.log2 : Int) + 1 + 0 - 53) (-1074)).toNat ≤ 52 := by omega
    generalize ((0 : Int) - max ((n.log2 : Int) + 1 + 0 - 53) (-1074)).toNat = shift at hshift
    have hshifted : n <<< shift < 2 ^ 64 * 2 ^ 52 := by
      rw [Nat.shiftLeft_eq]
      exact Nat.mul_lt_mul_of_lt_of_le h (Nat.pow_le_pow_right (by decide) hshift) (by decide)
    rw [← Nat.pow_add] at hshifted
    exact isBelow_roundWithAccuracy .positive (k := 0) hshifted (by omega) .exact

/-- A whole number of sixty-four bits has a small exponent. -/
theorem isBelow_ofNat {n : Nat} (h : n < 2 ^ 64) : IsBelow 446 (Float.ofNat n).toModel.unpack := by
  show IsBelow 446 (Float.ofScientific n false 0).toModel.unpack
  unfold Float.ofScientific
  split
  · refine isBelow_mul (j := 233) (k := 0) ?_ ?_ (by decide)
    · refine isBelow_unpack_pack (by decide) ?_
      have hn : n.toUInt64.toNat < 2 ^ 64 := UInt64.toNat_lt _
      exact isBelow_ofNat_unpacked hn
    · exact isBelow_powerOfTen_zero
  · rename_i hlarge
    refine isBelow_unpack_pack (by decide) ?_
    have hpositive : n ≠ 0 := by
      rintro rfl
      exact hlarge (by decide)
    have hproduct : UnpackedFloat.ofScientific Format.binary64 n 0 =
        roundWithAccuracy Format.binary64 .positive (n <<< 53 * 1) (-53 + 0) .exact := by
      unfold UnpackedFloat.ofScientific
      have hlow : ¬(0 : Int) < -((2 : Int) ^ 11 + (n.log2 : Int)) := by omega
      rw [dif_neg hpositive, if_neg (by decide), if_neg hlow, if_pos (Int.le_refl 0)]
      rfl
    have hshifted : n <<< 53 * 1 < 2 ^ 64 * 2 ^ 53 := by
      rw [Nat.shiftLeft_eq, Nat.mul_one]
      exact Nat.mul_lt_mul_of_pos_right h (Nat.two_pow_pos 53)
    rw [← Nat.pow_add] at hshifted
    show IsBelow 446 (UnpackedFloat.ofScientific Format.binary64 n 0)
    rw [hproduct]
    generalize n <<< 53 * 1 = significand at hshifted
    exact (isBelow_roundWithAccuracy .positive (k := 0) hshifted (by omega) .exact).mono (by decide)

/-- A whole number of sixty-four bits is finite when it is read. -/
theorem isSome_scale?_zero {n : Nat} (h : n < 2 ^ 64) : (Numeral.scale? n 0).isSome = true := by
  have hscaled := isBelow_mul (isBelow_ofNat h) isBelow_powerOfTen_zero (by decide)
  have hfinite : (Float.ofNat n * Numeral.powerOfTen 0).isInf = false := by
    show (Float.ofNat n * Numeral.powerOfTen 0).toModel.unpack.isInf = false
    cases hu : (Float.ofNat n * Numeral.powerOfTen 0).toModel.unpack with
    | infinity s => rw [hu] at hscaled; exact absurd hscaled id
    | notANumber => rfl
    | zero s => rfl
    | finite s m e hm => rfl
  show (Numeral.scaleUp? (Float.ofNat n) 0).isSome = true
  simp [Numeral.scaleUp?, hfinite]

end Binary

end ChartScript
