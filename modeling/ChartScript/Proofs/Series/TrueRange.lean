/-
The true range over exact numbers.

A bar may open away from the close before it.  Its true range is what prices have covered since
that close: the range of the bar, stretched as far as the close if the close is outside.  The
definition takes the largest of three distances instead, and which one that is depends on where
the close stands: below the bar, within it or above it.

The average true range is the exponential average of these ranges.  An average is between the
least and the greatest of its values, and no range is negative, so neither is the average.
-/
import Mathlib
import ChartScript.Proofs.Series.Average

namespace ChartScript.Series

open Exact (value)

variable {K : Type} [Field K] [LinearOrder K] [IsStrictOrderedRing K]

/-! ### One bar -/

/-- The largest of the three distances is the distance between the ends of the stretched bar. -/
theorem max_distance_eq {low high : K} (hbar : low ≤ high) (before : K) :
    max (max (high - low) |high - before|) |low - before| = max high before - min low before := by
  by_cases hbelow : before ≤ low
  · -- The close is below the bar, so the high is farthest from it.
    have hinside : before ≤ high := hbelow.trans hbar
    have hhigh : |high - before| = high - before := abs_of_nonneg (sub_nonneg.mpr hinside)
    have hlow : |low - before| = low - before := abs_of_nonneg (sub_nonneg.mpr hbelow)
    rw [hhigh, hlow, max_eq_left hinside, min_eq_right hbelow,
      max_eq_right (sub_le_sub_left hbelow high), max_eq_left (sub_le_sub_right hbar before)]
  · have hunder : low ≤ before := (not_le.mp hbelow).le
    have hlow : |low - before| = before - low := by
      rw [abs_sub_comm, abs_of_nonneg (sub_nonneg.mpr hunder)]
    by_cases habove : high ≤ before
    · have hhigh : |high - before| = before - high := by
        rw [abs_sub_comm, abs_of_nonneg (sub_nonneg.mpr habove)]
      have hrange : high - low ≤ before - low := sub_le_sub_right habove low
      have hgap : before - high ≤ before - low := sub_le_sub_left hbar before
      rw [hhigh, hlow, max_eq_right habove, min_eq_left hunder,
        max_eq_right (max_le hrange hgap)]
    · have hinside : before ≤ high := (not_le.mp habove).le
      have hhigh : |high - before| = high - before := abs_of_nonneg (sub_nonneg.mpr hinside)
      have hupper : high - before ≤ high - low := sub_le_sub_left hunder high
      have hlower : before - low ≤ high - low := sub_le_sub_right hinside low
      rw [hhigh, hlow, max_eq_left hinside, min_eq_left hunder, max_eq_left hupper,
        max_eq_left hlower]

omit [IsStrictOrderedRing K] in
/-- Nothing is in front of the first bar. -/
theorem barRange_none_value (high low : K) :
    barRange none (value high) (value low) = value (high - low) :=
  Exact.value_sub high low

theorem barRange_some_value {low high : K} (hbar : low ≤ high) (before : K) :
    barRange (some (value before)) (value high) (value low) =
      value (max high before - min low before) := by
  rw [barRange, Exact.value_sub, Exact.value_sub, Exact.value_sub, Exact.abs_value,
    Exact.abs_value, Exact.larger_value, Exact.larger_value, max_distance_eq hbar]

/-! ### Bars -/

/-- Three series of prices, of as many bars each, with no low above its high. -/
structure AreBars (high low close : List K) : Prop where
  ordered : List.Forall₂ (· ≤ ·) low high
  closes : close.length = high.length

namespace AreBars

variable {high low close : List K}

omit [Field K] [IsStrictOrderedRing K] in
theorem low_le_high (hbars : AreBars high low close) {i : Nat} {l h : K}
    (hl : low[i]? = some l) (hh : high[i]? = some h) : l ≤ h := by
  obtain ⟨hlow, rfl⟩ := List.getElem?_eq_some_iff.mp hl
  obtain ⟨hhigh, rfl⟩ := List.getElem?_eq_some_iff.mp hh
  exact (List.forall₂_iff_get.mp hbars.ordered).2 i hlow hhigh

omit [Field K] [IsStrictOrderedRing K] in
theorem exists_getElem? (hbars : AreBars high low close) {i : Nat} (hi : i < high.length) :
    ∃ h l c, high[i]? = some h ∧ low[i]? = some l ∧ close[i]? = some c := by
  have hlow : i < low.length := by rwa [hbars.ordered.length_eq]
  have hclose : i < close.length := by rwa [hbars.closes]
  exact ⟨_, _, _, List.getElem?_eq_getElem hi, List.getElem?_eq_getElem hlow,
    List.getElem?_eq_getElem hclose⟩

omit [IsStrictOrderedRing K] in
theorem getElem?_trueRange_zero (hbars : AreBars high low close) {h l : K}
    (hh : high[0]? = some h) (hl : low[0]? = some l) :
    (trueRange (high.map value) (low.map value) (close.map value))[0]? = some (value (h - l)) := by
  obtain ⟨_, _, c, -, -, hc⟩ := hbars.exists_getElem? (List.getElem?_eq_some_iff.mp hh).1
  rw [← barRange_none_value]
  apply getElem?_trueRangeFrom_zero
  · rw [List.getElem?_map, hh, Option.map_some]
  · rw [List.getElem?_map, hl, Option.map_some]
  · rw [List.getElem?_map, hc, Option.map_some]

theorem getElem?_trueRange_succ (hbars : AreBars high low close) {i : Nat} {h l before : K}
    (hh : high[i + 1]? = some h) (hl : low[i + 1]? = some l) (hbefore : close[i]? = some before) :
    (trueRange (high.map value) (low.map value) (close.map value))[i + 1]? =
      some (value (max h before - min l before)) := by
  obtain ⟨_, _, c, -, -, hc⟩ := hbars.exists_getElem? (List.getElem?_eq_some_iff.mp hh).1
  rw [← barRange_some_value (hbars.low_le_high hl hh)]
  apply getElem?_trueRangeFrom_succ
  · rw [List.getElem?_map, hh, Option.map_some]
  · rw [List.getElem?_map, hl, Option.map_some]
  · rw [List.getElem?_map, hbefore, Option.map_some]
  · rw [List.getElem?_map, hc, Option.map_some]

/-- Every bar has a true range, which is not negative. -/
theorem exists_getElem?_trueRange (hbars : AreBars high low close) {i : Nat}
    (hi : i < high.length) :
    ∃ r, (trueRange (high.map value) (low.map value) (close.map value))[i]? = some (value r) ∧
      0 ≤ r := by
  obtain ⟨h, l, c, hh, hl, hc⟩ := hbars.exists_getElem? hi
  have hle : l ≤ h := hbars.low_le_high hl hh
  cases i with
  | zero => exact ⟨h - l, hbars.getElem?_trueRange_zero hh hl, sub_nonneg.mpr hle⟩
  | succ i =>
      obtain ⟨_, _, before, -, -, hbefore⟩ := hbars.exists_getElem? (Nat.lt_of_succ_lt hi)
      have hends : min l before ≤ max h before :=
        (min_le_left l before).trans (hle.trans (le_max_left h before))
      exact ⟨_, hbars.getElem?_trueRange_succ hh hl hbefore, sub_nonneg.mpr hends⟩

omit [IsStrictOrderedRing K] in
theorem length_trueRange (hbars : AreBars high low close) :
    (trueRange (high.map value) (low.map value) (close.map value)).length = high.length := by
  have hlow := hbars.ordered.length_eq
  have hclose := hbars.closes
  rw [Series.length_trueRange, List.length_map, List.length_map, List.length_map]
  change min (min high.length low.length) close.length = high.length
  omega

theorem nonneg_of_mem_trueRange (hbars : AreBars high low close) {i : Nat} {r : K}
    (hr : (trueRange (high.map value) (low.map value) (close.map value))[i]? = some (value r)) :
    0 ≤ r := by
  have hi : i < high.length := hbars.length_trueRange ▸ (List.getElem?_eq_some_iff.mp hr).1
  obtain ⟨s, hs, hnonneg⟩ := hbars.exists_getElem?_trueRange hi
  rw [hr] at hs
  cases hs
  exact hnonneg

/-- The true ranges are numbers throughout. -/
theorem exists_trueRange_eq_map (hbars : AreBars high low close) :
    ∃ ranges : List K,
      trueRange (high.map value) (low.map value) (close.map value) = ranges.map value := by
  apply Exact.exists_map_value
  intro hmem
  obtain ⟨i, hundefined⟩ := List.mem_iff_getElem?.mp hmem
  have hi : i < high.length :=
    hbars.length_trueRange ▸ (List.getElem?_eq_some_iff.mp hundefined).1
  obtain ⟨r, hr, -⟩ := hbars.exists_getElem?_trueRange hi
  rw [hundefined] at hr
  cases hr

/-- The average at a bar is between the least and the greatest true range up to there, and so it
is not negative. -/
theorem exists_getElem?_atr (hbars : AreBars high low close) {n i : Nat} (hn : 0 < n)
    (hi : i < high.length) :
    ∃ v least greatest,
      (atr (high.map value) (low.map value) (close.map value) n)[i]? = some (value v) ∧ 0 ≤ v ∧
      IsLeast (lastNumbers (i + 1)
        (trueRange (high.map value) (low.map value) (close.map value)) i) least ∧
      IsGreatest (lastNumbers (i + 1)
        (trueRange (high.map value) (low.map value) (close.map value)) i) greatest ∧
      least ≤ v ∧ v ≤ greatest := by
  have hlength := hbars.length_trueRange
  obtain ⟨ranges, hranges⟩ := hbars.exists_trueRange_eq_map
  have hinside : i < ranges.length := by
    rw [hranges, List.length_map] at hlength
    rwa [hlength]
  obtain ⟨least, greatest, hleast, hgreatest, hlow, hhigh⟩ :=
    Average.exponential.exists_bounds hn hinside (le_refl (i + 1))
  have hvalue := getElem?_ema_value n hinside
  rw [← hranges] at hleast hgreatest hvalue
  have hnonneg : 0 ≤ least := by
    obtain ⟨j, -, -, hj⟩ := hleast.1
    exact hbars.nonneg_of_mem_trueRange hj
  exact ⟨_, least, greatest, hvalue, hnonneg.trans hlow, hleast, hgreatest, hlow, hhigh⟩

end AreBars

/-! ### The true range and its average -/

/-- **The true range of a bar is its range, stretched to the close before it**, and its average
is defined at every bar, not negative, and between the least and the greatest true range so
far. -/
theorem true_range_and_its_average {high low close : List K}
    (hordered : List.Forall₂ (· ≤ ·) low high) (hcloses : close.length = high.length) :
    (∀ h l, high[0]? = some h → low[0]? = some l →
      (trueRange (high.map value) (low.map value) (close.map value))[0]? =
        some (value (h - l))) ∧
    (∀ (i : Nat) (h l before : K), high[i + 1]? = some h → low[i + 1]? = some l →
      close[i]? = some before →
      (trueRange (high.map value) (low.map value) (close.map value))[i + 1]? =
        some (value (max h before - min l before))) ∧
    (∀ n i : Nat, 0 < n → i < high.length →
      ∃ v least greatest,
        (atr (high.map value) (low.map value) (close.map value) n)[i]? = some (value v) ∧ 0 ≤ v ∧
        IsLeast (lastNumbers (i + 1)
          (trueRange (high.map value) (low.map value) (close.map value)) i) least ∧
        IsGreatest (lastNumbers (i + 1)
          (trueRange (high.map value) (low.map value) (close.map value)) i) greatest ∧
        least ≤ v ∧ v ≤ greatest) := by
  have hbars : AreBars high low close := ⟨hordered, hcloses⟩
  refine ⟨?_, ?_, ?_⟩
  · intro h l hh hl
    exact hbars.getElem?_trueRange_zero hh hl
  · intro i h l before hh hl hbefore
    exact hbars.getElem?_trueRange_succ hh hl hbefore
  · intro n i hn hi
    exact hbars.exists_getElem?_atr hn hi

/-- Three bars, the second above the close before it and the third below.  Their true ranges are
2, 5 and 6, and the average over two bars at the third is between the first of these and the
last. -/
theorem true_range_of_two_gaps :
    let high : List ℚ := [12, 16, 11]
    let low : List ℚ := [10, 14, 9]
    let close : List ℚ := [11, 15, 10]
    let ranges := trueRange (high.map value) (low.map value) (close.map value)
    ranges[0]? = some (value 2) ∧ ranges[1]? = some (value 5) ∧ ranges[2]? = some (value 6) ∧
      ∃ v, (atr (high.map value) (low.map value) (close.map value) 2)[2]? = some (value v) ∧
        2 ≤ v ∧ v ≤ 6 := by
  intro high low close ranges
  have hordered : List.Forall₂ (· ≤ ·) low high := by
    simp only [low, high, List.forall₂_cons, List.Forall₂.nil]
    norm_num
  have hcloses : close.length = high.length := rfl
  obtain ⟨hfirst, hlater, haverage⟩ := true_range_and_its_average hordered hcloses
  have hzero : ranges[0]? = some (value 2) := by
    have h := hfirst 12 10 rfl rfl
    norm_num at h
    exact h
  have hone : ranges[1]? = some (value 5) := by
    have h := hlater 0 16 14 11 rfl rfl rfl
    norm_num at h
    exact h
  have htwo : ranges[2]? = some (value 6) := by
    have h := hlater 1 11 9 15 rfl rfl rfl
    norm_num at h
    exact h
  obtain ⟨v, least, greatest, hv, -, hleast, hgreatest, hlow, hhigh⟩ :=
    haverage 2 2 (by decide) (by decide)
  have hends : ∀ r ∈ lastNumbers 3 ranges 2, 2 ≤ r ∧ r ≤ 6 := by
    rintro r ⟨j, hj, -, hr⟩
    interval_cases j
    · rw [hzero] at hr
      cases hr
      norm_num
    · rw [hone] at hr
      cases hr
      norm_num
    · rw [htwo] at hr
      cases hr
      norm_num
  exact ⟨hzero, hone, htwo, v, hv, (hends least hleast.1).1.trans hlow,
    hhigh.trans (hends greatest hgreatest.1).2⟩

end ChartScript.Series
