/-
What each indicator is at an index.

The definitions go through a series once, with a state.  Here every one of them is read at a
single index: a windowed indicator is a function of the last few values up to there, and a
smoothed one folds over all of them.  Nothing is assumed of the arithmetic, so these equations
hold over floating-point numbers as they do over exact ones.
-/
import Mathlib
import ChartScript.Proofs.Series.Prefix

namespace ChartScript.Series

open Scalar

variable {α : Type}

/-! ### Values up to an index -/

/-- What is among the values up to an index stands at an index that is not behind it. -/
theorem mem_take_succ_iff {data : List α} {i : Nat} {x : α} :
    x ∈ data.take (i + 1) ↔ ∃ j ≤ i, data[j]? = some x := by
  rw [List.mem_iff_getElem?]
  constructor
  · rintro ⟨j, hj⟩
    rw [List.getElem?_take] at hj
    split at hj
    · exact ⟨j, by omega, hj⟩
    · cases hj
  · rintro ⟨j, hle, hj⟩
    refine ⟨j, ?_⟩
    rw [List.getElem?_take, if_pos (by omega), hj]

/-- The last `n` values up to an index, latest first; all there are if there are fewer. -/
def lastValues (n : Nat) (data : List α) (i : Nat) : List α :=
  ((data.take (i + 1)).reverse).take n

theorem mem_lastValues_iff {n : Nat} {data : List α} {i : Nat} (hi : i < data.length) {x : α} :
    x ∈ lastValues n data i ↔ ∃ j ≤ i, i < j + n ∧ data[j]? = some x := by
  have hlength : (data.take (i + 1)).length = i + 1 := by
    rw [List.length_take]
    omega
  rw [lastValues, List.take_reverse, List.mem_reverse, hlength, List.mem_iff_getElem?]
  constructor
  · rintro ⟨k, hk⟩
    rw [List.getElem?_drop, List.getElem?_take] at hk
    split at hk
    · exact ⟨i + 1 - n + k, by omega, by omega, hk⟩
    · cases hk
  · rintro ⟨j, hle, hlast, hj⟩
    refine ⟨j - (i + 1 - n), ?_⟩
    rw [List.getElem?_drop, List.getElem?_take, if_pos (by omega)]
    rw [show i + 1 - n + (j - (i + 1 - n)) = j by omega]
    exact hj

theorem lastValues_ne_nil {n : Nat} {data : List α} {i : Nat} (hn : 0 < n) (hi : i < data.length) :
    lastValues n data i ≠ [] := by
  have hmem : data[i] ∈ lastValues n data i :=
    (mem_lastValues_iff hi).mpr ⟨i, Nat.le_refl i, by omega, List.getElem?_eq_getElem hi⟩
  exact List.ne_nil_of_mem hmem

theorem length_lastValues {n : Nat} {data : List α} {i : Nat} (hi : i < data.length)
    (hn : n ≤ i + 1) : (lastValues n data i).length = n := by
  rw [lastValues, List.length_take, List.length_reverse, List.length_take]
  omega

/-- The last values up to an index are counted backwards from there. -/
theorem getElem?_lastValues {n : Nat} {data : List α} {i : Nat} (hi : i < data.length) {j : Nat}
    (hj : j < n) (hji : j ≤ i) : (lastValues n data i)[j]? = data[i - j]? := by
  have hlength : (data.take (i + 1)).length = i + 1 := by
    rw [List.length_take]
    omega
  rw [lastValues, List.getElem?_take, if_pos hj, List.getElem?_reverse (by omega), hlength,
    List.getElem?_take, if_pos (by omega), show i + 1 - 1 - j = i - j by omega]

/-- From as many values as there are up to an index, none is left out. -/
theorem lastValues_succ (data : List α) (i : Nat) :
    lastValues (i + 1) data i = (data.take (i + 1)).reverse := by
  rw [lastValues, List.take_of_length_le]
  rw [List.length_reverse, List.length_take]
  exact Nat.min_le_left _ _

theorem lastValues_map {β : Type} (f : α → β) (n : Nat) (data : List α) (i : Nat) :
    lastValues n (data.map f) i = (lastValues n data i).map f := by
  simp only [lastValues, ← List.map_take, ← List.map_reverse]

theorem lastValues_zipWith {β γ : Type} (f : α → β → γ) (n : Nat) {xs : List α} {ys : List β}
    (hlength : xs.length = ys.length) (i : Nat) :
    lastValues n (List.zipWith f xs ys) i =
      List.zipWith f (lastValues n xs i) (lastValues n ys i) := by
  have htake : (xs.take (i + 1)).length = (ys.take (i + 1)).length := by
    rw [List.length_take, List.length_take, hlength]
  simp only [lastValues, List.take_zipWith, List.reverse_zipWith htake]

theorem forall₂_lastValues {β : Type} {R : α → β → Prop} (n : Nat) {xs : List α} {ys : List β}
    (h : List.Forall₂ R xs ys) (i : Nat) :
    List.Forall₂ R (lastValues n xs i) (lastValues n ys i) :=
  List.forall₂_take n (List.forall₂_reverse_iff.mpr (List.forall₂_take (i + 1) h))

/-! ### Windows -/

theorem getElem?_windowsFrom (n : Nat) (before data : List α) {i : Nat} (hi : i < data.length) :
    (windowsFrom n before data)[i]? =
      some (if n ≠ 0 ∧ n ≤ i + 1 + before.length then
        some (((data.take (i + 1)).reverse ++ before).take n) else none) := by
  induction data generalizing before i with
  | nil => exact absurd hi (Nat.not_lt_zero i)
  | cons x rest ih =>
      cases i with
      | zero =>
          have hcount : (x :: before).length = 0 + 1 + before.length := by
            rw [List.length_cons]
            omega
          rw [windowsFrom, List.getElem?_cons_zero, hcount]
          simp
      | succ i =>
          have hcount : i + 1 + (x :: before).length = i + 1 + 1 + before.length := by
            rw [List.length_cons]
            omega
          rw [windowsFrom, List.getElem?_cons_succ, ih (x :: before) (Nat.lt_of_succ_lt_succ hi),
            hcount]
          simp

/-- The window at an index, where there is one, has the last values up to there. -/
theorem getElem?_windows (n : Nat) (data : List α) {i : Nat} (hi : i < data.length) :
    (windows n data)[i]? =
      some (if n ≠ 0 ∧ n ≤ i + 1 then some (lastValues n data i) else none) := by
  rw [windows, getElem?_windowsFrom n [] data hi, List.append_nil]
  rfl

variable [Scalar α]

/-- A windowed indicator is undefined until the first window is full. -/
theorem getElem?_overWindows {n : Nat} (hn : 0 < n) (f : List α → α) (data : List α) {i : Nat}
    (hi : i < data.length) :
    (overWindows n f data)[i]? =
      some (if i + 1 < n then undefined else f (lastValues n data i)) := by
  rw [overWindows, List.getElem?_map, getElem?_windows n data hi]
  by_cases hfull : i + 1 < n
  · rw [if_neg (by omega), if_pos hfull]
    rfl
  · rw [if_pos (by omega), if_neg hfull]
    rfl

/-- A windowed indicator has no value where there is no window. -/
theorem getElem?_overWindows_of_lacks {n : Nat} (f : List α → α) {data : List α} {i : Nat}
    (hi : i < data.length) (hlacks : n = 0 ∨ i + 1 < n) :
    (overWindows n f data)[i]? = some undefined := by
  rw [overWindows, List.getElem?_map, getElem?_windows n data hi, if_neg (by omega)]
  rfl

/-! ### Averages -/

/-- The exponential average at an index mixes the values up to there. -/
theorem getElem?_ema {data earlier : List α} {seed : α} (n : Nat) {i : Nat}
    (hi : i < data.length) (hdata : data.take (i + 1) = seed :: earlier) :
    (ema data n)[i]? = some (earlier.foldl (mix (emaShare n)) seed) := by
  cases data with
  | nil => exact absurd hi (Nat.not_lt_zero i)
  | cons first later =>
      rw [List.take_succ_cons] at hdata
      obtain ⟨rfl, rfl⟩ := List.cons.inj hdata
      rw [ema, List.getElem?_scanl, if_pos (Nat.le_of_lt_succ hi)]

theorem getElem?_macdLine {data : List α} {fast slow i : Nat} {x y : α}
    (hfast : (ema data fast)[i]? = some x) (hslow : (ema data slow)[i]? = some y) :
    (macdLine data fast slow)[i]? = some (x - y) := by
  rw [macdLine, List.getElem?_zipWith, hfast, hslow]

/-! ### The strength index -/

theorem getElem?_changes {data : List α} {j : Nat} {x y : α} (hx : data[j]? = some x)
    (hy : data[j + 1]? = some y) : (changes data)[j]? = some (y - x) := by
  rw [changes, List.getElem?_zipWith, List.getElem?_drop, Nat.add_comm 1 j, hx, hy]

theorem getElem?_rsi_of_lt (data : List α) {n i : Nat} (hi : i < data.length) (hin : i < n) :
    (rsi data n)[i]? = some undefined := by
  by_cases hshort : n = 0 ∨ data.length ≤ n
  · rw [rsi_of_short hshort, List.getElem?_replicate, if_pos hi]
  · rw [rsi_of_long hshort, List.getElem?_append_left (by simpa using hin),
      List.getElem?_replicate, if_pos hin]

/-- From index `n` on, the strength index is that of the averages so far. -/
theorem getElem?_rsi (data : List α) {n i : Nat} (hn : 0 < n) (hin : n ≤ i)
    (hi : i < data.length) :
    (rsi data n)[i]? = some (Momentum.index
      ((((changes data).drop n).take (i - n)).foldl (Momentum.smooth n)
        (Momentum.seed ((changes data).take n) n))) := by
  have hlong : ¬(n = 0 ∨ data.length ≤ n) := by omega
  have hinside : i - n ≤ ((changes data).drop n).length := by
    rw [List.length_drop, length_changes]
    omega
  rw [rsi_of_long hlong, List.getElem?_append_right (by simpa using hin), List.length_replicate,
    List.getElem?_map, List.getElem?_scanl, if_pos hinside]
  rfl

/-! ### Ranges -/

theorem getElem?_trueRangeFrom_zero {previous : Option α} {high low close : List α} {h l c : α}
    (hh : high[0]? = some h) (hl : low[0]? = some l) (hc : close[0]? = some c) :
    (trueRangeFrom previous high low close)[0]? = some (barRange previous h l) := by
  cases high with
  | nil => cases hh
  | cons _ highs =>
      cases low with
      | nil => cases hl
      | cons _ lows =>
          cases close with
          | nil => cases hc
          | cons _ closes =>
              cases hh
              cases hl
              rfl

/-- The true range of a later bar looks at the close before it. -/
theorem getElem?_trueRangeFrom_succ {previous : Option α} {high low close : List α} {j : Nat}
    {h l before c : α} (hh : high[j + 1]? = some h) (hl : low[j + 1]? = some l)
    (hbefore : close[j]? = some before) (hc : close[j + 1]? = some c) :
    (trueRangeFrom previous high low close)[j + 1]? = some (barRange (some before) h l) := by
  induction j generalizing previous high low close with
  | zero =>
      cases high with
      | nil => cases hh
      | cons _ highs =>
          cases low with
          | nil => cases hl
          | cons _ lows =>
              cases close with
              | nil => cases hbefore
              | cons _ closes =>
                  cases hbefore
                  exact getElem?_trueRangeFrom_zero hh hl hc
  | succ j ih =>
      cases high with
      | nil => cases hh
      | cons _ highs =>
          cases low with
          | nil => cases hl
          | cons _ lows =>
              cases close with
              | nil => cases hbefore
              | cons _ closes => exact ih hh hl hbefore hc

/-- The %K line is undefined until the first window is full. -/
theorem getElem?_stochasticK {high low close : List α} {n i : Nat} (hn : 0 < n) {c : α}
    (hhigh : i < high.length) (hlow : i < low.length) (hc : close[i]? = some c) :
    (stochasticK high low close n)[i]? =
      some (if i + 1 < n then undefined
        else standing (lastValues n high i) (lastValues n low i) c) := by
  rw [stochasticK, List.getElem?_zipWith, List.zip_eq_zipWith, List.getElem?_zipWith,
    getElem?_windows n high hhigh, getElem?_windows n low hlow, hc]
  by_cases hfull : i + 1 < n
  · rw [if_neg (by omega), if_pos hfull]
  · rw [if_pos (by omega), if_neg hfull, if_pos (by omega)]

/-- The %K line has no value where there is no window. -/
theorem getElem?_stochasticK_of_lacks {high low close : List α} {n i : Nat}
    (hlacks : n = 0 ∨ i + 1 < n) (hhigh : i < high.length) (hlow : i < low.length)
    (hclose : i < close.length) : (stochasticK high low close n)[i]? = some undefined := by
  rw [stochasticK, List.getElem?_zipWith, List.zip_eq_zipWith, List.getElem?_zipWith,
    getElem?_windows n high hhigh, getElem?_windows n low hlow,
    List.getElem?_eq_getElem hclose, if_neg (by omega)]

end ChartScript.Series
