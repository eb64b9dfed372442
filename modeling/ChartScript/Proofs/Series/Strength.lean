/-
The strength index over exact numbers: its range, its extremes and its symmetries.

The index weighs the average gain against the average loss, both of which are known here to be
numbers that are not negative.  It is the share of the gain in the two together, in hundredths,
and 100 where there is no loss.  So it lies between 0 and 100, and it is at an end exactly where
one of the averages is zero.

Data that are moved and stretched have both averages stretched alike, which leaves the share as
it is.  Data that are turned over have them exchanged, which leaves the rest of 100; only where
both are zero is there no share to exchange, and the index is 100 either way.
-/
import Mathlib
import ChartScript.Proofs.Series.Hundredths
import ChartScript.Proofs.Series.Smoothing

namespace ChartScript.Series

open Exact (value ofNat_eq)

variable {K : Type} [Field K] [LinearOrder K] [IsStrictOrderedRing K]

/-! ### The index of data -/

/-- The indicator's index of averages that are numbers, neither of them negative. -/
theorem Momentum.index_value {gain loss : K} (hgain : 0 ≤ gain) (hloss : 0 ≤ loss) :
    Momentum.index ⟨value gain, value loss⟩ = value (strength gain loss) := by
  unfold Momentum.index strength
  by_cases hzero : loss = 0
  · rw [if_pos (Exact.isZero_value_iff.mpr hzero), if_pos hzero, ofNat_eq, Nat.cast_ofNat]
  · have hratio : 1 + gain / loss ≠ 0 := by positivity
    rw [if_neg fun h => hzero (Exact.isZero_value_iff.mp h), if_neg hzero, ofNat_eq, ofNat_eq,
      Nat.cast_ofNat, Nat.cast_one, Exact.value_div hzero, Exact.value_add,
      Exact.value_div hratio, Exact.value_sub]

theorem averageGain_nonneg {n : Nat} (hn : 0 < n) (data : List K) (i : Nat) :
    0 ≤ averageGain n data i :=
  averageOf_nonneg (fun c => posPart_nonneg c) hn data i

theorem averageLoss_nonneg {n : Nat} (hn : 0 < n) (data : List K) (i : Nat) :
    0 ≤ averageLoss n data i :=
  averageOf_nonneg (fun c => negPart_nonneg c) hn data i

/-- From index `n` on, the strength index weighs the average gain against the average loss. -/
theorem getElem?_rsi_value {data : List K} {n i : Nat} (hn : 0 < n) (hin : n ≤ i)
    (hi : i < data.length) :
    (rsi (data.map value) n)[i]? =
      some (value (strength (averageGain n data i) (averageLoss n data i))) := by
  rw [getElem?_rsi_after (data.map value) hn hin (by rwa [List.length_map]),
    after_changes hn, Momentum.index_value (averageGain_nonneg hn data i)
      (averageLoss_nonneg hn data i)]

/-- From index `n` on the index lies between 0 and 100.  For a length of two or more it is 100
exactly where no change so far is negative, and 0 exactly where some are and none is
positive. -/
theorem rsi_range_and_extremes (data : List K) {n i : Nat} (hn : 0 < n) (hin : n ≤ i)
    (hi : i < data.length) :
    ∃ r, (rsi (data.map value) n)[i]? = some (value r) ∧ 0 ≤ r ∧ r ≤ 100 ∧
      (2 ≤ n →
        (r = 100 ↔ ∀ c ∈ changesUpTo data i, 0 ≤ c) ∧
        (r = 0 ↔ (∃ c ∈ changesUpTo data i, c < 0) ∧ ∀ c ∈ changesUpTo data i, c ≤ 0)) := by
  have hgain := averageGain_nonneg hn data i
  have hloss := averageLoss_nonneg hn data i
  refine ⟨_, getElem?_rsi_value hn hin hi, strength_nonneg hgain hloss,
    strength_le_hundred hgain hloss, ?_⟩
  intro htwo
  have hfallen : averageLoss n data i ≠ 0 ↔ ∃ c ∈ changesUpTo data i, c < 0 := by
    rw [Ne, averageLoss_eq_zero_iff htwo]
    push Not
    rfl
  rw [strength_eq_hundred_iff hgain hloss, averageLoss_eq_zero_iff htwo,
    strength_eq_zero_iff hgain hloss, hfallen, averageGain_eq_zero_iff htwo]
  exact ⟨Iff.rfl, Iff.rfl⟩

/-- Closes that fall, stay and fall again have an index of 0. -/
theorem rsi_of_falling_closes :
    (rsi (([3, 2, 2, 1] : List ℚ).map value) 2)[3]? = some (value 0) := by
  obtain ⟨r, hr, -, -, hextremes⟩ :=
    rsi_range_and_extremes ([3, 2, 2, 1] : List ℚ) (n := 2) (i := 3) (by decide) (by decide)
      (by decide)
  have hfall : ∃ c ∈ changesUpTo ([3, 2, 2, 1] : List ℚ) 3, c < 0 :=
    ⟨2 - 3, ⟨0, by decide, 3, 2, rfl, rfl, rfl⟩, by norm_num⟩
  have hnone : ∀ c ∈ changesUpTo ([3, 2, 2, 1] : List ℚ) 3, c ≤ 0 := by
    rintro c ⟨j, hj, x, y, hx, hy, rfl⟩
    interval_cases j <;> cases hx <;> cases hy <;> norm_num
  rw [hr, (hextremes (le_refl 2)).2.mpr ⟨hfall, hnone⟩]

/-! ### Symmetries -/

/-- Moving and stretching the data leaves the index as it is. -/
theorem rsi_affine {a : K} (ha : 0 < a) (b : K) (data : List K) {n : Nat} (hn : 0 < n) :
    rsi ((data.map fun x => a * x + b).map value) n = rsi (data.map value) n := by
  refine List.ext_getElem? fun i => ?_
  by_cases hi : i < data.length
  · by_cases hin : i < n
    · rw [getElem?_rsi_of_lt _ (by simpa using hi) hin,
        getElem?_rsi_of_lt _ (by simpa using hi) hin]
    · have hmoved : i < (data.map fun x => a * x + b).length := by rwa [List.length_map]
      have hgain : averageGain n (data.map fun x => a * x + b) i = a * averageGain n data i :=
        averageOf_affine (posPart_mul ha.le) n b data i
      have hloss : averageLoss n (data.map fun x => a * x + b) i = a * averageLoss n data i :=
        averageOf_affine (negPart_mul ha.le) n b data i
      rw [getElem?_rsi_value hn (by omega) hmoved, getElem?_rsi_value hn (by omega) hi, hgain,
        hloss, strength_mul ha.ne']
  · rw [List.getElem?_eq_none (by simpa using hi), List.getElem?_eq_none (by simpa using hi)]

/-- Moving and stretching the data leaves the index as it is, and turning them over gives the
rest of 100, unless both running averages are zero and the index 100 either way. -/
theorem rsi_symmetries (data : List K) {n : Nat} (hn : 0 < n) :
    (∀ a b : K, 0 < a →
      rsi ((data.map fun x => a * x + b).map value) n = rsi (data.map value) n) ∧
    ∀ i, n ≤ i → i < data.length → ∃ r turned gain loss,
      (rsi (data.map value) n)[i]? = some (value r) ∧
      (rsi ((data.map (- ·)).map value) n)[i]? = some (value turned) ∧
      Momentum.after n ((changes (data.map value)).take i) = ⟨value gain, value loss⟩ ∧
      (gain = 0 ∧ loss = 0 → r = 100 ∧ turned = 100) ∧
      (¬(gain = 0 ∧ loss = 0) → turned = 100 - r) := by
  refine ⟨fun a b ha => rsi_affine ha b data hn, ?_⟩
  intro i hin hi
  have hturned : i < (data.map (- ·)).length := by rwa [List.length_map]
  refine ⟨_, _, averageGain n data i, averageLoss n data i, getElem?_rsi_value hn hin hi,
    getElem?_rsi_value hn hin hturned, after_changes hn data i, ?_, ?_⟩
  · rintro ⟨hgain, hloss⟩
    rw [averageLoss_neg, averageGain_neg, hgain, hloss, strength_of_no_loss]
    exact ⟨rfl, rfl⟩
  · intro hsome
    rw [averageLoss_neg, averageGain_neg]
    exact strength_swap (averageGain_nonneg hn data i) (averageLoss_nonneg hn data i) hsome

/-- Closes that rise more than they fall: twice as large and moved by one they have the same
index, and turned over the rest of 100. -/
theorem rsi_of_turned_closes :
    let data : List ℚ := [1, 3, 2]
    rsi ((data.map fun x => 2 * x + 1).map value) 2 = rsi (data.map value) 2 ∧
      ∃ r, (rsi (data.map value) 2)[2]? = some (value r) ∧
        (rsi ((data.map (- ·)).map value) 2)[2]? = some (value (100 - r)) := by
  intro data
  obtain ⟨hmoved, hturned⟩ := rsi_symmetries data (n := 2) (by decide)
  obtain ⟨r, turned, gain, loss, hr, hother, haverages, -, hrest⟩ :=
    hturned 2 (le_refl 2) (by decide)
  have hgain : gain ≠ 0 := by
    rw [after_changes (by decide)] at haverages
    injection haverages with hvalue
    injection hvalue with heq
    rw [← heq, Ne, averageGain_eq_zero_iff (le_refl 2)]
    intro hnone
    have hrise := hnone (3 - 1) ⟨0, by decide, 1, 3, rfl, rfl, rfl⟩
    norm_num at hrise
  rw [hrest fun h => hgain h.1] at hother
  exact ⟨hmoved 2 1 (by norm_num), r, hr, hother⟩

end ChartScript.Series
