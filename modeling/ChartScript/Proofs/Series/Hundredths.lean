/-
Numbers from 0 to 100.

Two indicators are shares of a whole in hundredths.  The strength index is the share of the
average gain in the average gain and loss together, and 100 where there is no loss.  The
stochastic oscillator is the place of a close between two ends, and 50 where these are the
same.  What is said here is about the two formulas alone: between which bounds they lie, where
they reach them, and that they look at proportions only.
-/
import Mathlib

namespace ChartScript.Series

variable {K : Type} [Field K] [LinearOrder K]

/-! ### The strength of gains against losses -/

/-- The index that an average gain and an average loss give. -/
def strength (gain loss : K) : K :=
  if loss = 0 then 100 else 100 - 100 / (1 + gain / loss)

theorem strength_of_no_loss (gain : K) : strength gain 0 = 100 :=
  if_pos rfl

variable [IsStrictOrderedRing K]

/-- Where there is a loss the index is the share of the gain in both. -/
theorem strength_eq {gain loss : K} (hgain : 0 ≤ gain) (hloss : 0 < loss) :
    strength gain loss = 100 * (gain / (gain + loss)) := by
  have hboth : gain + loss ≠ 0 := (add_pos_of_nonneg_of_pos hgain hloss).ne'
  have hratio : 1 + gain / loss = (gain + loss) / loss := by
    rw [add_div, div_self hloss.ne', add_comm]
  rw [strength, if_neg hloss.ne', hratio, div_div_eq_mul_div, mul_div_assoc, ← mul_one_sub,
    one_sub_div hboth, add_sub_cancel_right]

theorem strength_nonneg {gain loss : K} (hgain : 0 ≤ gain) (hloss : 0 ≤ loss) :
    0 ≤ strength gain loss := by
  by_cases hzero : loss = 0
  · rw [hzero, strength_of_no_loss]
    norm_num
  · rw [strength_eq hgain (hloss.lt_of_ne' hzero)]
    positivity

/-- The share of the gain is less than all of it while there is a loss. -/
theorem strength_lt_hundred {gain loss : K} (hgain : 0 ≤ gain) (hloss : 0 < loss) :
    strength gain loss < 100 := by
  have hshare : gain / (gain + loss) < 1 := by
    rw [div_lt_one (add_pos_of_nonneg_of_pos hgain hloss)]
    exact lt_add_of_pos_right gain hloss
  rw [strength_eq hgain hloss]
  linarith only [hshare]

theorem strength_eq_hundred_iff {gain loss : K} (hgain : 0 ≤ gain) (hloss : 0 ≤ loss) :
    strength gain loss = 100 ↔ loss = 0 := by
  constructor
  · intro hhundred
    by_contra hzero
    exact (strength_lt_hundred hgain (hloss.lt_of_ne' hzero)).ne hhundred
  · intro hzero
    rw [hzero, strength_of_no_loss]

theorem strength_le_hundred {gain loss : K} (hgain : 0 ≤ gain) (hloss : 0 ≤ loss) :
    strength gain loss ≤ 100 := by
  by_cases hzero : loss = 0
  · exact ((strength_eq_hundred_iff hgain hloss).mpr hzero).le
  · exact (strength_lt_hundred hgain (hloss.lt_of_ne' hzero)).le

theorem strength_eq_zero_iff {gain loss : K} (hgain : 0 ≤ gain) (hloss : 0 ≤ loss) :
    strength gain loss = 0 ↔ loss ≠ 0 ∧ gain = 0 := by
  by_cases hzero : loss = 0
  · rw [hzero, strength_of_no_loss]
    simp
  · have hpositive : 0 < loss := hloss.lt_of_ne' hzero
    have hboth : gain + loss ≠ 0 := (add_pos_of_nonneg_of_pos hgain hpositive).ne'
    rw [strength_eq hgain hpositive, mul_eq_zero, div_eq_zero_iff, or_iff_left hboth,
      or_iff_right (by norm_num), and_iff_right hzero]

omit [IsStrictOrderedRing K] in
/-- Averages that are stretched alike have the same index. -/
theorem strength_mul {a : K} (ha : a ≠ 0) (gain loss : K) :
    strength (a * gain) (a * loss) = strength gain loss := by
  simp only [strength, mul_eq_zero, or_iff_right ha, mul_div_mul_left gain loss ha]

/-- Exchanging gain and loss gives the rest of 100. -/
theorem strength_swap {gain loss : K} (hgain : 0 ≤ gain) (hloss : 0 ≤ loss)
    (hsome : ¬(gain = 0 ∧ loss = 0)) : strength loss gain = 100 - strength gain loss := by
  by_cases hgainless : gain = 0
  · have hlossy : loss ≠ 0 := fun h => hsome ⟨hgainless, h⟩
    have hzero : strength gain loss = 0 :=
      (strength_eq_zero_iff hgain hloss).mpr ⟨hlossy, hgainless⟩
    rw [hzero, hgainless, strength_of_no_loss, sub_zero]
  · by_cases hlossless : loss = 0
    · have hzero : strength loss gain = 0 :=
        (strength_eq_zero_iff hloss hgain).mpr ⟨hgainless, hlossless⟩
      rw [hzero, hlossless, strength_of_no_loss, sub_self]
    · have hup : 0 < gain := hgain.lt_of_ne' hgainless
      have hdown : 0 < loss := hloss.lt_of_ne' hlossless
      have hboth : gain + loss ≠ 0 := (add_pos hup hdown).ne'
      rw [strength_eq hloss hup, strength_eq hgain hdown, add_comm loss gain, ← mul_one_sub,
        one_sub_div hboth, add_sub_cancel_left]

/-! ### The place of a number -/

/-- The place of a number in a range, in hundredths, and the middle if the range is empty. -/
def place (lowest highest x : K) : K :=
  if lowest < highest then (x - lowest) / (highest - lowest) * 100 else 50

omit [IsStrictOrderedRing K] in
theorem place_of_empty (x y : K) : place x x y = 50 :=
  if_neg (lt_irrefl x)

theorem place_nonneg {lowest highest x : K} (hlow : lowest ≤ x) : 0 ≤ place lowest highest x := by
  unfold place
  by_cases hrange : lowest < highest
  · rw [if_pos hrange]
    have habove : 0 ≤ x - lowest := sub_nonneg.mpr hlow
    have hwidth : 0 < highest - lowest := sub_pos.mpr hrange
    positivity
  · rw [if_neg hrange]
    norm_num

theorem place_le_hundred {lowest highest x : K} (hhigh : x ≤ highest) :
    place lowest highest x ≤ 100 := by
  unfold place
  by_cases hrange : lowest < highest
  · have hshare : (x - lowest) / (highest - lowest) ≤ 1 := by
      rw [div_le_one (sub_pos.mpr hrange)]
      exact sub_le_sub_right hhigh lowest
    rw [if_pos hrange]
    linarith only [hshare]
  · rw [if_neg hrange]
    norm_num

/-- A number keeps its place when the range is moved and stretched with it. -/
theorem place_affine {a : K} (ha : 0 < a) (b lowest highest x : K) :
    place (a * lowest + b) (a * highest + b) (a * x + b) = place lowest highest x := by
  have hstep : ∀ u v : K, a * u + b - (a * v + b) = a * (u - v) := by
    intro u v
    ring
  simp only [place, add_lt_add_iff_right, mul_lt_mul_iff_right₀ ha, hstep,
    mul_div_mul_left _ _ ha.ne']

end ChartScript.Series
