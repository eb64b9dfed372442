/-
Numerals stand for numbers without a sign.

A numeral has no sign in its text, so the number it is read as should have none either, not
even the zero that a small numeral is rounded to.  What is packed without a sign is stored
without one and is unpacked without one, and products and quotients of such numbers are such
numbers again.  Reading a numeral does nothing else.
-/
import ChartScript.Proofs.Decimal.Binary

namespace ChartScript

open Float.Model Float.Model.UnpackedFloat

namespace Binary

/-- A number, or no number at all, without a minus sign. -/
inductive IsUnsigned : UnpackedFloat → Prop where
  | notANumber : IsUnsigned .notANumber
  | zero : IsUnsigned (.zero .positive)
  | finite (m : Nat) (e : Int) (h : 0 < m) : IsUnsigned (.finite .positive m e h)
  | infinity : IsUnsigned (.infinity .positive)

variable {u v : UnpackedFloat}

/-! ### Storing -/

theorem toNat_packComponents_lt (e : BitVec 11) (m : BitVec 52) :
    (packComponents Format.binary64 .positive e m).toNat < 2 ^ 63 := by
  have hparts : (packComponents Format.binary64 .positive e m).toNat = (e ++ m).toNat := by
    show (0#1 ++ e ++ m : BitVec (1 + 11 + 52)).toNat = _
    rw [BitVec.toNat_append, BitVec.toNat_append, BitVec.toNat_append]
    simp
  rw [hparts]
  exact BitVec.isLt _

/-- A number without a sign is stored without one. -/
theorem IsUnsigned.toNat_pack_lt (h : IsUnsigned u) :
    (UnpackedFloat.pack Format.binary64 u).toNat < 2 ^ 63 := by
  cases h with
  | notANumber => exact toNat_packComponents_lt _ _
  | zero => exact toNat_packComponents_lt _ _
  | infinity => exact toNat_packComponents_lt _ _
  | finite m e hm =>
      unfold UnpackedFloat.pack
      simp only
      split
      · exact toNat_packComponents_lt _ _
      · split
        · exact toNat_packComponents_lt _ _
        · exact toNat_packComponents_lt _ _

/-- What is stored without a sign is unpacked without one. -/
theorem isUnsigned_unpack {b : BitVec 64} (h : b.toNat < 2 ^ 63) :
    IsUnsigned (UnpackedFloat.unpack Format.binary64 b) := by
  have hbit : @unpackSign Format.binary64 b = 0#1 := by
    refine BitVec.eq_of_toNat_eq ?_
    show (BitVec.extractLsb 63 63 b).toNat = 0
    rw [BitVec.extractLsb_toNat, Nat.shiftRight_eq_div_pow, Nat.div_eq_of_lt h]
  have hsign : Sign.ofBitVec (@unpackSign Format.binary64 b) = .positive := by
    rw [hbit]
    rfl
  unfold UnpackedFloat.unpack
  simp only [hsign]
  split
  · split
    · exact .infinity
    · exact .notANumber
  · split
    · split
      · exact .zero
      · exact .finite _ _ _
    · exact .finite _ _ _

/-! ### Computing -/

theorem isUnsigned_roundWithAccuracy (m : Nat) (e : Int) (accuracy : Accuracy) :
    IsUnsigned (roundWithAccuracy Format.binary64 .positive m e accuracy) := by
  unfold roundWithAccuracy
  simp only
  split
  · exact .zero
  · exact .finite _ _ _

theorem IsUnsigned.mul (hu : IsUnsigned u) (hv : IsUnsigned v) :
    IsUnsigned (UnpackedFloat.mul Format.binary64 u v) := by
  cases hu with
  | finite m e hm =>
      cases hv with
      | finite n f hn => exact isUnsigned_roundWithAccuracy _ _ _
      | _ => constructor
  | _ => cases hv <;> constructor

theorem IsUnsigned.div (hu : IsUnsigned u) (hv : IsUnsigned v) :
    IsUnsigned (UnpackedFloat.div Format.binary64 u v) := by
  cases hu with
  | finite m e hm =>
      cases hv with
      | finite n f hn => exact isUnsigned_roundWithAccuracy _ _ _
      | _ => constructor
  | _ => cases hv <;> constructor

/-- A whole number is stored without a sign. -/
theorem isUnsigned_ofNat (n : Nat) : IsUnsigned (UnpackedFloat.ofNat Format.binary64 n) := by
  show IsUnsigned (UnpackedFloat.normalize Format.binary64 (n : Int) 0 .positive)
  unfold UnpackedFloat.normalize
  split
  · rename_i hnegative
    rw [Int.compare_eq_lt] at hnegative
    omega
  · exact .zero
  · exact isUnsigned_roundWithAccuracy _ _ _

theorem isUnsigned_ofScientific (m : Nat) (e : Int) :
    IsUnsigned (UnpackedFloat.ofScientific Format.binary64 m e) := by
  unfold UnpackedFloat.ofScientific
  split
  · exact .zero
  · split
    · exact .infinity
    · split
      · exact .zero
      · split
        · exact isUnsigned_roundWithAccuracy _ _ _
        · exact isUnsigned_roundWithAccuracy _ _ _

/-- The powers of ten that are stored have no sign. -/
theorem toBits_powersOfTen (e : Fin 23) :
    (Float.exactlyRepresentablePowersOfTen[e]).toBits.toNat < 2 ^ 63 := by
  decide +revert

end Binary

open Binary

/-- A number in scientific notation has no sign. -/
theorem toBits_ofScientific_lt (m : Nat) (isNegative : Bool) (e : Nat) :
    (Float.ofScientific m isNegative e).toBits.toNat < 2 ^ 63 := by
  unfold Float.ofScientific
  split
  · rename_i hexact
    have hleft : IsUnsigned m.toUInt64.toFloat.toModel.unpack :=
      isUnsigned_unpack (isUnsigned_ofNat _).toNat_pack_lt
    have hright := isUnsigned_unpack (toBits_powersOfTen ⟨e, by omega⟩)
    cases isNegative with
    | true => exact (hleft.div hright).toNat_pack_lt
    | false => exact (hleft.mul hright).toNat_pack_lt
  · exact (isUnsigned_ofScientific m _).toNat_pack_lt

/-- **A numeral is read as a number without a sign.** -/
theorem Decimal.toBits_toFloat_lt (d : Decimal) : d.toFloat.toBits.toNat < 2 ^ 63 := by
  unfold Decimal.toFloat
  split
  · decide
  · split
    · decide
    · split
      · decide
      · exact toBits_ofScientific_lt _ _ _

end ChartScript
