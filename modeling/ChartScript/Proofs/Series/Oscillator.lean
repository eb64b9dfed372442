/-
The stochastic oscillator over exact numbers.

Its %K value is the place of a close between the least low and the greatest high of a window,
in hundredths.  The bar itself is in the window, so a close within its bar is between these two,
and the value between 0 and 100.  Moving and stretching all three series moves and stretches
the window's ends with the close, which leaves the place.

The %D value is a plain average of %K values, so it lies between the same bounds as soon as all
of these are there, and what leaves the %K line as it is leaves the %D line as it is.
-/
import Mathlib
import ChartScript.Proofs.Series.Average
import ChartScript.Proofs.Series.Hundredths

namespace ChartScript.Series

open Exact (value ofNat_eq)

variable {K : Type} [Field K] [LinearOrder K] [IsStrictOrderedRing K]

/-! ### The %K line -/

/-- A close stands at its place between the ends of its window. -/
theorem standing_value {highs lows : List K} {highest lowest : K}
    (hgreatest : IsGreatest {x | x ∈ highs} highest) (hleast : IsLeast {x | x ∈ lows} lowest)
    (close : K) :
    standing (highs.map value) (lows.map value) (value close) =
      value (place lowest highest close) := by
  have hdefined : ∀ xs : List K, .undefined ∉ xs.map value := by simp
  have hhighs : highs.map value ≠ [] := List.ne_nil_of_mem (List.mem_map_of_mem hgreatest.1)
  have hlows : lows.map value ≠ [] := List.ne_nil_of_mem (List.mem_map_of_mem hleast.1)
  obtain ⟨top, htop, htopmost⟩ := Exact.exists_isGreatest hhighs (hdefined highs)
  obtain ⟨bottom, hbottom, hbottommost⟩ := Exact.exists_isLeast hlows (hdefined lows)
  rw [Exact.setOf_value_mem_map] at htopmost hbottommost
  obtain rfl := htopmost.unique hgreatest
  obtain rfl := hbottommost.unique hleast
  have hlt : Scalar.lt (Scalar.ofNat 0) (value top - value bottom) = true ↔ bottom < top := by
    rw [ofNat_eq, Exact.value_sub, Exact.lt_value_iff, Nat.cast_zero, sub_pos]
  unfold standing place
  rw [htop, hbottom]
  by_cases hrange : bottom < top
  · rw [if_pos (hlt.mpr hrange), if_pos hrange, Exact.value_sub, Exact.value_sub,
      Exact.value_div (sub_pos.mpr hrange).ne', ofNat_eq, Exact.value_mul, Nat.cast_ofNat]
  · rw [if_neg fun h => hrange (hlt.mp h), if_neg hrange, ofNat_eq, Nat.cast_ofNat]

/-- With a full window the %K value is the place of the close between its ends. -/
theorem getElem?_stochasticK_value {n : Nat} (hn : 0 < n) {high low close : List K} {i : Nat}
    (hfull : n ≤ i + 1) (hhigh : i < high.length) (hlow : i < low.length) {c : K}
    (hc : close[i]? = some c) {highest lowest : K}
    (hgreatest : IsGreatest (lastNumbers n (high.map value) i) highest)
    (hleast : IsLeast (lastNumbers n (low.map value) i) lowest) :
    (stochasticK (high.map value) (low.map value) (close.map value) n)[i]? =
      some (value (place lowest highest c)) := by
  have hclose : (close.map value)[i]? = some (value c) := by
    rw [List.getElem?_map, hc]
    rfl
  rw [lastNumbers_value hhigh] at hgreatest
  rw [lastNumbers_value hlow] at hleast
  rw [getElem?_stochasticK hn (by rwa [List.length_map]) (by rwa [List.length_map]) hclose,
    if_neg (by omega), lastValues_map, lastValues_map, standing_value hgreatest hleast]

/-! ### Closes within their bars -/

/-- Every close is between the low and the high of its bar. -/
structure AreWithin (close low high : List K) : Prop where
  above : List.Forall₂ (· ≤ ·) low close
  below : List.Forall₂ (· ≤ ·) close high

namespace AreWithin

variable {close low high : List K}

omit [IsStrictOrderedRing K] in
theorem length_stochasticK (h : AreWithin close low high) (n : Nat) :
    (stochasticK (high.map value) (low.map value) (close.map value) n).length = close.length := by
  have hlow := h.above.length_eq
  have hhigh := h.below.length_eq
  rw [Series.length_stochasticK, List.length_map, List.length_map, List.length_map]
  change min (min high.length low.length) close.length = close.length
  omega

/-- The bar itself is in its window, so its close is not below the least low there, nor above
the greatest high. -/
theorem exists_getElem?_stochasticK (h : AreWithin close low high) {n : Nat} (hn : 0 < n)
    {i : Nat} (hfull : n ≤ i + 1) (hi : i < close.length) :
    ∃ v, (stochasticK (high.map value) (low.map value) (close.map value) n)[i]? =
      some (value v) ∧ 0 ≤ v ∧ v ≤ 100 := by
  have hlow : i < low.length := h.above.length_eq ▸ hi
  have hhigh : i < high.length := h.below.length_eq ▸ hi
  obtain ⟨lowest, hleast⟩ := exists_isLeast_lastNumbers hn hlow
  obtain ⟨highest, hgreatest⟩ := exists_isGreatest_lastNumbers hn hhigh
  have hmem : ∀ {data : List K} (hdata : i < data.length),
      data[i] ∈ lastNumbers n (data.map value) i := by
    intro data hdata
    refine ⟨i, le_refl i, by omega, ?_⟩
    rw [List.getElem?_map, List.getElem?_eq_getElem hdata]
    rfl
  have habove : lowest ≤ close[i] :=
    (hleast.2 (hmem hlow)).trans ((List.forall₂_iff_get.mp h.above).2 i hlow hi)
  have hbelow : close[i] ≤ highest :=
    ((List.forall₂_iff_get.mp h.below).2 i hi hhigh).trans (hgreatest.2 (hmem hhigh))
  exact ⟨_, getElem?_stochasticK_value hn hfull hhigh hlow (List.getElem?_eq_getElem hi)
    hgreatest hleast, place_nonneg habove, place_le_hundred hbelow⟩

/-- The %K line is between 0 and 100 where it is defined. -/
theorem stochasticK_bounds (h : AreWithin close low high) {n : Nat} (hn : 0 < n) {i : Nat} {v : K}
    (hv : (stochasticK (high.map value) (low.map value) (close.map value) n)[i]? =
      some (value v)) : 0 ≤ v ∧ v ≤ 100 := by
  have hi : i < close.length := h.length_stochasticK n ▸ (List.getElem?_eq_some_iff.mp hv).1
  have hlow := h.above.length_eq
  have hhigh := h.below.length_eq
  by_cases hearly : i + 1 < n
  · rw [getElem?_stochasticK_of_lacks (Or.inr hearly) (by simp only [List.length_map]; omega)
      (by simp only [List.length_map]; omega) (by rwa [List.length_map])] at hv
    cases hv
  · obtain ⟨u, hu, hbounds⟩ := h.exists_getElem?_stochasticK hn (by omega) hi
    rw [hu] at hv
    cases hv
    exact hbounds

theorem not_undefinedAt_stochastic_iff (h : AreWithin close low high) {k d : Nat} (hk : 0 < k)
    (hd : 0 < d) {i : Nat} (hi : i < close.length) :
    ¬UndefinedAt (stochastic (high.map value) (low.map value) (close.map value) k d) i ↔
      k + d - 2 ≤ i := by
  have hlow := h.above.length_eq
  have hhigh := h.below.length_eq
  rw [undefinedAt_stochastic_iff_of_defined hk hd (by simp only [List.length_map]; omega)
    (by simp only [List.length_map]; omega) (by rwa [List.length_map])
    fun j _ => not_undefinedAt_value close j]
  omega

/-- The %D line is, as an average of such values, between 0 and 100 as well. -/
theorem stochastic_bounds (h : AreWithin close low high) {k d : Nat} (hk : 0 < k) (hd : 0 < d)
    {i : Nat} {v : K}
    (hv : (stochastic (high.map value) (low.map value) (close.map value) k d)[i]? =
      some (value v)) : 0 ≤ v ∧ v ≤ 100 := by
  have hline := h.length_stochasticK k
  have hi : i < close.length := by
    have hlt := (List.getElem?_eq_some_iff.mp hv).1
    rwa [stochastic, length_sma, hline] at hlt
  have hfull : k + d - 2 ≤ i := by
    rw [← h.not_undefinedAt_stochastic_iff hk hd hi, UndefinedAt, hv]
    simp
  have hwindow : ∀ a ∈ lastValues d
      (stochasticK (high.map value) (low.map value) (close.map value) k) i,
      ∃ x, a = value x ∧ 0 ≤ x ∧ x ≤ 100 := by
    intro a ha
    obtain ⟨j, hj, hlast, hja⟩ := (mem_lastValues_iff (hline.symm ▸ hi)).mp ha
    obtain ⟨u, hu, hbounds⟩ := h.exists_getElem?_stochasticK hk (i := j) (by omega) (by omega)
    rw [hu] at hja
    exact ⟨u, (Option.some.inj hja).symm, hbounds⟩
  obtain ⟨u, hu, hbounds⟩ := sma_between hd (hline.symm ▸ hi) (by omega) hwindow
  rw [stochastic, hu] at hv
  cases hv
  exact hbounds

end AreWithin

/-! ### Prices moved and stretched -/

omit [Field K] [LinearOrder K] [IsStrictOrderedRing K] in
theorem lastNumbers_map (f : K → K) (n : Nat) {data : List K} {i : Nat} (hi : i < data.length) :
    lastNumbers n ((data.map f).map value) i = f '' lastNumbers n (data.map value) i := by
  rw [lastNumbers_value (by rwa [List.length_map]), lastNumbers_value hi, lastValues_map]
  ext x
  exact List.mem_map

/-- Moving and stretching all three series leaves the %K line as it is. -/
theorem stochasticK_affine {a : K} (ha : 0 < a) (b : K) (high low close : List K) {n : Nat}
    (hn : 0 < n) :
    stochasticK ((high.map fun x => a * x + b).map value) ((low.map fun x => a * x + b).map value)
        ((close.map fun x => a * x + b).map value) n =
      stochasticK (high.map value) (low.map value) (close.map value) n := by
  have hmono : Monotone fun x => a * x + b := by
    intro x y hxy
    exact add_le_add_left (mul_le_mul_of_nonneg_left hxy ha.le) b
  refine List.ext_getElem? fun i => ?_
  by_cases hi : i < high.length ∧ i < low.length ∧ i < close.length
  · obtain ⟨hhigh, hlow, hclose⟩ := hi
    by_cases hearly : i + 1 < n
    · rw [getElem?_stochasticK_of_lacks (Or.inr hearly) (by simpa using hhigh)
          (by simpa using hlow) (by simpa using hclose),
        getElem?_stochasticK_of_lacks (Or.inr hearly) (by simpa using hhigh)
          (by simpa using hlow) (by simpa using hclose)]
    · obtain ⟨lowest, hleast⟩ := exists_isLeast_lastNumbers hn hlow
      obtain ⟨highest, hgreatest⟩ := exists_isGreatest_lastNumbers hn hhigh
      have hc := List.getElem?_eq_getElem hclose
      have hmoved : (close.map fun x => a * x + b)[i]? = some (a * close[i] + b) := by
        rw [List.getElem?_map, hc]
        rfl
      have htop := hmono.map_isGreatest hgreatest
      have hbottom := hmono.map_isLeast hleast
      rw [← lastNumbers_map _ n hhigh] at htop
      rw [← lastNumbers_map _ n hlow] at hbottom
      rw [getElem?_stochasticK_value hn (by omega) (by simpa using hhigh) (by simpa using hlow)
          hmoved htop hbottom,
        getElem?_stochasticK_value hn (by omega) hhigh hlow hc hgreatest hleast,
        place_affine ha]
  · have hnone : ∀ h l c : List (Exact K), h.length = high.length → l.length = low.length →
        c.length = close.length → (stochasticK h l c n)[i]? = none := by
      intro h l c hh hl hc
      rw [List.getElem?_eq_none_iff, length_stochasticK, hh, hl, hc]
      change min (min high.length low.length) close.length ≤ i
      omega
    rw [hnone _ _ _ (by simp) (by simp) (by simp), hnone _ _ _ (by simp) (by simp) (by simp)]

/-! ### The oscillator -/

/-- With closes within their bars, the %D line is defined from the index on where both windows
are full.  Both lines stay between 0 and 100, the %K value is 50 where its window is flat, and
moving and stretching the prices leaves both as they are. -/
theorem stochastic_stays_in_range {high low close : List K} {k d : Nat} (hk : 0 < k) (hd : 0 < d)
    (hlow : List.Forall₂ (· ≤ ·) low close) (hhigh : List.Forall₂ (· ≤ ·) close high) :
    (∀ i < close.length,
      (¬UndefinedAt (stochastic (high.map value) (low.map value) (close.map value) k d) i ↔
        k + d - 2 ≤ i)) ∧
    (∀ (i : Nat) (v : K), (stochasticK (high.map value) (low.map value) (close.map value) k)[i]? =
      some (value v) → 0 ≤ v ∧ v ≤ 100) ∧
    (∀ (i : Nat) (v : K), (stochastic (high.map value) (low.map value) (close.map value) k d)[i]? =
      some (value v) → 0 ≤ v ∧ v ≤ 100) ∧
    (∀ (i : Nat) (x : K), i < close.length → k ≤ i + 1 →
      IsGreatest (lastNumbers k (high.map value) i) x →
      IsLeast (lastNumbers k (low.map value) i) x →
      (stochasticK (high.map value) (low.map value) (close.map value) k)[i]? =
        some (value 50)) ∧
    (∀ a b : K, 0 < a →
      stochasticK ((high.map fun x => a * x + b).map value)
          ((low.map fun x => a * x + b).map value) ((close.map fun x => a * x + b).map value) k =
        stochasticK (high.map value) (low.map value) (close.map value) k ∧
      stochastic ((high.map fun x => a * x + b).map value)
          ((low.map fun x => a * x + b).map value) ((close.map fun x => a * x + b).map value) k d =
        stochastic (high.map value) (low.map value) (close.map value) k d) := by
  have hwithin : AreWithin close low high := ⟨hlow, hhigh⟩
  refine ⟨?_, ?_, ?_, ?_, ?_⟩
  · intro i hi
    exact hwithin.not_undefinedAt_stochastic_iff hk hd hi
  · intro i v hv
    exact hwithin.stochasticK_bounds hk hv
  · intro i v hv
    exact hwithin.stochastic_bounds hk hd hv
  · intro i x hi hfull hgreatest hleast
    rw [getElem?_stochasticK_value hk hfull (hhigh.length_eq ▸ hi) (hlow.length_eq ▸ hi)
      (List.getElem?_eq_getElem hi) hgreatest hleast, place_of_empty]
  · intro a b ha
    have hline := stochasticK_affine ha b high low close hk
    exact ⟨hline, by rw [stochastic, hline, stochastic]⟩

/-- Three bars, the last of them flat.  Over single bars its %K value is 50, the %D line over
two of these is defined there, and both stay as they are when the prices are doubled and moved
by one. -/
theorem stochastic_of_a_flat_bar :
    let high : List ℚ := [3, 4, 4]
    let low : List ℚ := [1, 2, 4]
    let close : List ℚ := [2, 4, 4]
    ¬UndefinedAt (stochastic (high.map value) (low.map value) (close.map value) 1 2) 2 ∧
      (stochasticK (high.map value) (low.map value) (close.map value) 1)[2]? = some (value 50) ∧
      stochastic ((high.map fun x => 2 * x + 1).map value) ((low.map fun x => 2 * x + 1).map value)
          ((close.map fun x => 2 * x + 1).map value) 1 2 =
        stochastic (high.map value) (low.map value) (close.map value) 1 2 := by
  intro high low close
  have hlow : List.Forall₂ (· ≤ ·) low close := by
    simp only [low, close, List.forall₂_cons, List.Forall₂.nil]
    norm_num
  have hhigh : List.Forall₂ (· ≤ ·) close high := by
    simp only [high, close, List.forall₂_cons, List.Forall₂.nil]
    norm_num
  obtain ⟨hdefined, -, -, hflat, hmoved⟩ :=
    stochastic_stays_in_range (k := 1) (d := 2) (by decide) (by decide) hlow hhigh
  refine ⟨(hdefined 2 (by decide)).mpr (by decide), ?_, (hmoved 2 1 (by norm_num)).2⟩
  refine hflat 2 4 (by decide) (by decide) ⟨⟨2, le_refl 2, by decide, rfl⟩, ?_⟩
    ⟨⟨2, le_refl 2, by decide, rfl⟩, ?_⟩
  · rintro u ⟨j, hj, hlast, hu⟩
    obtain rfl : j = 2 := by omega
    cases hu
    exact le_refl 4
  · rintro u ⟨j, hj, hlast, hu⟩
    obtain rfl : j = 2 := by omega
    cases hu
    exact le_refl 4

end ChartScript.Series
