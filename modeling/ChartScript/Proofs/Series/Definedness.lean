/-
Where an indicator is undefined.

A bar can lack a price, and an indicator reads the series as they are.  A windowed average is
undefined while its window is not full and while an undefined value is in it; a smoothed one
is undefined from the first undefined value on.  The strength index is undefined only if its
first average is: a later undefined change is neither a gain nor a loss.  The %K line is the
other way round: an undefined high or low puts it in the middle, so what leaves it undefined
past its first window is an undefined close, and only where the range is not empty.

Arithmetic is exact here, with an undefined value; see `Exact`.
-/
import Mathlib
import ChartScript.Proofs.Series.Exact
import ChartScript.Proofs.Series.Index

namespace ChartScript.Series

open Exact (value ofNat_eq)

variable {K : Type}

/-- A series is undefined at an index. -/
def UndefinedAt (data : List (Exact K)) (i : Nat) : Prop :=
  data[i]? = some .undefined

/-- The numbers among the last `n` values up to an index. -/
def lastNumbers (n : Nat) (data : List (Exact K)) (i : Nat) : Set K :=
  {x | ∃ j ≤ i, i < j + n ∧ data[j]? = some (value x)}

theorem mem_lastValues_undefined_iff {n : Nat} {data : List (Exact K)} {i : Nat}
    (hi : i < data.length) :
    .undefined ∈ lastValues n data i ↔ ∃ j ≤ i, i < j + n ∧ UndefinedAt data j :=
  mem_lastValues_iff hi

theorem setOf_mem_lastValues {n : Nat} {data : List (Exact K)} {i : Nat} (hi : i < data.length) :
    {x | value x ∈ lastValues n data i} = lastNumbers n data i :=
  Set.ext fun _ => mem_lastValues_iff hi

/-- A series of numbers is nowhere undefined. -/
theorem not_undefinedAt_value (data : List K) (j : Nat) : ¬UndefinedAt (data.map value) j := by
  intro hj
  rw [UndefinedAt, List.getElem?_map, Option.map_eq_some_iff] at hj
  obtain ⟨x, -, hx⟩ := hj
  cases hx

theorem lastNumbers_value {n : Nat} {data : List K} {i : Nat} (hi : i < data.length) :
    lastNumbers n (data.map value) i = {x | x ∈ lastValues n data i} := by
  rw [← setOf_mem_lastValues (by rwa [List.length_map]), lastValues_map,
    Exact.setOf_value_mem_map]

variable [Field K] [LinearOrder K]

/-! ### Windows -/

/-- An average that is undefined where something in its window is. -/
theorem undefinedAt_overWindows_iff {n : Nat} (hn : 0 < n) {f : List (Exact K) → Exact K}
    (hf : ∀ window, f window = .undefined ↔ .undefined ∈ window) {data : List (Exact K)}
    {i : Nat} (hi : i < data.length) :
    UndefinedAt (overWindows n f data) i ↔
      i + 1 < n ∨ ∃ j ≤ i, i < j + n ∧ UndefinedAt data j := by
  unfold UndefinedAt
  rw [getElem?_overWindows hn f data hi, Option.some_inj]
  by_cases hfull : i + 1 < n
  · rw [if_pos hfull]
    exact iff_of_true rfl (Or.inl hfull)
  · rw [if_neg hfull, hf, mem_lastValues_undefined_iff hi, or_iff_right hfull]
    rfl

theorem weightedSum_eq_undefined_iff (weight : Nat) (sum : Exact K) (window : List (Exact K)) :
    weightedSum weight sum window = .undefined ↔ sum = .undefined ∨ .undefined ∈ window := by
  induction window generalizing weight sum with
  | nil => simp [weightedSum]
  | cons x rest ih =>
      have hterm : x * value (weight : K) = .undefined ↔ .undefined = x := by
        rw [Exact.mul_eq_undefined_iff, eq_comm (a := x)]
        simp
      rw [weightedSum, ih, ofNat_eq, Exact.add_eq_undefined_iff, hterm, List.mem_cons, or_assoc]

/-! ### Ranges -/

theorem barRange_none_eq_undefined_iff {high low : Exact K} :
    barRange none high low = .undefined ↔ high = .undefined ∨ low = .undefined :=
  Exact.sub_eq_undefined_iff

theorem barRange_some_eq_undefined_iff {high low close : Exact K} :
    barRange (some close) high low = .undefined ↔
      high = .undefined ∨ low = .undefined ∨ close = .undefined := by
  simp only [barRange, Exact.larger_eq_undefined_iff, Exact.sub_eq_undefined_iff,
    Exact.abs_eq_undefined_iff]
  tauto

theorem undefinedAt_trueRange_iff {high low close : List (Exact K)} {j : Nat}
    (hhigh : j < high.length) (hlow : j < low.length) (hclose : j < close.length) :
    UndefinedAt (trueRange high low close) j ↔
      (UndefinedAt high j ∨ UndefinedAt low j) ∨ ∃ i, j = i + 1 ∧ UndefinedAt close i := by
  have hh := List.getElem?_eq_getElem hhigh
  have hl := List.getElem?_eq_getElem hlow
  have hc := List.getElem?_eq_getElem hclose
  unfold UndefinedAt trueRange
  cases j with
  | zero =>
      rw [getElem?_trueRangeFrom_zero hh hl hc, hh, hl]
      simp [barRange_none_eq_undefined_iff]
  | succ i =>
      have hbefore := List.getElem?_eq_getElem (Nat.lt_of_succ_lt hclose)
      rw [getElem?_trueRangeFrom_succ hh hl hbefore hc, hh, hl]
      simp [barRange_some_eq_undefined_iff, hbefore, or_assoc]

/-! ### Changes -/

/-- Every value of a stretch is in one of its changes. -/
theorem undefined_mem_changes_iff {n : Nat} (hn : 0 < n) {data : List (Exact K)}
    (hlong : n < data.length) :
    .undefined ∈ (changes data).take n ↔ ∃ j ≤ n, UndefinedAt data j := by
  have hchange {j : Nat} (hj : j < n) :
      UndefinedAt (changes data) j ↔ UndefinedAt data (j + 1) ∨ UndefinedAt data j := by
    have hx := List.getElem?_eq_getElem (l := data) (i := j) (by omega)
    have hy := List.getElem?_eq_getElem (l := data) (i := j + 1) (by omega)
    unfold UndefinedAt
    rw [getElem?_changes hx hy, hx, hy]
    simp
  obtain ⟨last, rfl⟩ := Nat.exists_eq_add_one.mpr hn
  refine mem_take_succ_iff.trans ?_
  constructor
  · rintro ⟨j, hj, hundefined⟩
    rcases (hchange (by omega)).mp hundefined with hlater | hearlier
    · exact ⟨j + 1, by omega, hlater⟩
    · exact ⟨j, by omega, hearlier⟩
  · rintro ⟨j, hj, hundefined⟩
    cases j with
    | zero => exact ⟨0, by omega, (hchange (by omega)).mpr (Or.inr hundefined)⟩
    | succ j => exact ⟨j, by omega, (hchange (by omega)).mpr (Or.inl hundefined)⟩

variable [IsStrictOrderedRing K]

/-! ### Averages -/

/-- A length is not zero as a number either. -/
theorem cast_pos {n : Nat} (hn : 0 < n) : (0 : K) < n :=
  Nat.cast_pos.mpr hn

theorem undefinedAt_sma_iff {n : Nat} (hn : 0 < n) {data : List (Exact K)} {i : Nat}
    (hi : i < data.length) :
    UndefinedAt (sma data n) i ↔ i + 1 < n ∨ ∃ j ≤ i, i < j + n ∧ UndefinedAt data j := by
  refine undefinedAt_overWindows_iff hn (fun window => ?_) hi
  rw [ofNat_eq n, Exact.div_value_eq_undefined_iff (cast_pos hn).ne',
    Exact.foldl_eq_undefined_iff fun _ _ => Exact.add_eq_undefined_iff, ofNat_eq]
  simp

/-- The weights of a window, from its length down to one, add up to this. -/
theorem weights_eq (n : Nat) :
    (Scalar.ofNat n * (Scalar.ofNat n + Scalar.ofNat 1) / Scalar.ofNat 2 : Exact K) =
      value ((n : K) * (n + 1) / 2) := by
  rw [ofNat_eq, ofNat_eq, ofNat_eq, Exact.value_add, Exact.value_mul, Nat.cast_one,
    Nat.cast_ofNat, Exact.value_div two_ne_zero]

theorem weights_pos {n : Nat} (hn : 0 < n) : 0 < (n : K) * (n + 1) / 2 := by
  have hcast : (0 : K) < n := cast_pos hn
  positivity

theorem undefinedAt_wma_iff {n : Nat} (hn : 0 < n) {data : List (Exact K)} {i : Nat}
    (hi : i < data.length) :
    UndefinedAt (wma data n) i ↔ i + 1 < n ∨ ∃ j ≤ i, i < j + n ∧ UndefinedAt data j := by
  refine undefinedAt_overWindows_iff hn (fun window => ?_) hi
  rw [weights_eq, Exact.div_value_eq_undefined_iff (weights_pos hn).ne',
    weightedSum_eq_undefined_iff, ofNat_eq]
  simp

theorem emaShare_eq (n : Nat) : (emaShare n : Exact K) = value (2 / ((n : K) + 1)) := by
  have hpositive : (n : K) + 1 ≠ 0 := by positivity
  rw [emaShare, ofNat_eq, ofNat_eq, ofNat_eq, Exact.value_add, Nat.cast_one, Nat.cast_ofNat,
    Exact.value_div hpositive]

/-- Mixing keeps an undefined average undefined, and an undefined value makes it so. -/
theorem mix_eq_undefined_iff (n : Nat) (average x : Exact K) :
    mix (emaShare n) average x = .undefined ↔ average = .undefined ∨ x = .undefined := by
  rw [mix, emaShare_eq, ofNat_eq]
  simp [or_comm]

theorem undefinedAt_ema_iff {n : Nat} {data : List (Exact K)} {i : Nat} (hi : i < data.length) :
    UndefinedAt (ema data n) i ↔ ∃ j ≤ i, UndefinedAt data j := by
  obtain ⟨seed, earlier, hdata⟩ : ∃ seed earlier, data.take (i + 1) = seed :: earlier := by
    cases data with
    | nil => exact absurd hi (Nat.not_lt_zero i)
    | cons seed later => exact ⟨seed, later.take i, rfl⟩
  have hmem : .undefined ∈ data.take (i + 1) ↔ ∃ j ≤ i, UndefinedAt data j := mem_take_succ_iff
  rw [← hmem, hdata, UndefinedAt, getElem?_ema n hi hdata, Option.some_inj,
    Exact.foldl_eq_undefined_iff (mix_eq_undefined_iff n), List.mem_cons, eq_comm (a := seed)]

theorem undefinedAt_macdLine_iff {fast slow : Nat} {data : List (Exact K)} {i : Nat}
    (hi : i < data.length) :
    UndefinedAt (macdLine data fast slow) i ↔ ∃ j ≤ i, UndefinedAt data j := by
  have hline (n : Nat) : ∃ x, (ema data n)[i]? = some x :=
    ⟨_, List.getElem?_eq_getElem (by rw [length_ema]; exact hi)⟩
  obtain ⟨x, hx⟩ := hline fast
  obtain ⟨y, hy⟩ := hline slow
  have hfast := undefinedAt_ema_iff (n := fast) hi
  have hslow := undefinedAt_ema_iff (n := slow) hi
  rw [UndefinedAt, hx, Option.some_inj] at hfast
  rw [UndefinedAt, hy, Option.some_inj] at hslow
  rw [UndefinedAt, getElem?_macdLine hx hy, Option.some_inj, Exact.sub_eq_undefined_iff, hfast,
    hslow, or_self]

/-- The average true range is undefined from the first undefined high or low on, and from the
bar after the first undefined close on. -/
theorem undefinedAt_atr_iff {n : Nat} {high low close : List (Exact K)} {i : Nat}
    (hhigh : i < high.length) (hlow : i < low.length) (hclose : i < close.length) :
    UndefinedAt (atr high low close n) i ↔
      (∃ j ≤ i, UndefinedAt high j ∨ UndefinedAt low j) ∨ ∃ j < i, UndefinedAt close j := by
  have hi : i < (trueRange high low close).length := by
    rw [length_trueRange]
    exact Nat.lt_min.mpr ⟨Nat.lt_min.mpr ⟨hhigh, hlow⟩, hclose⟩
  have hbar {j : Nat} (hj : j ≤ i) := undefinedAt_trueRange_iff (j := j)
    (Nat.lt_of_le_of_lt hj hhigh) (Nat.lt_of_le_of_lt hj hlow) (Nat.lt_of_le_of_lt hj hclose)
  rw [atr, undefinedAt_ema_iff hi]
  constructor
  · rintro ⟨j, hj, hundefined⟩
    rcases (hbar hj).mp hundefined with hprices | ⟨before, rfl, hbefore⟩
    · exact Or.inl ⟨j, hj, hprices⟩
    · exact Or.inr ⟨before, hj, hbefore⟩
  · rintro (⟨j, hj, hprices⟩ | ⟨before, hlt, hbefore⟩)
    · exact ⟨j, hj, (hbar hj).mpr (Or.inl hprices)⟩
    · exact ⟨before + 1, hlt, (hbar hlt).mpr (Or.inr ⟨before, rfl, hbefore⟩)⟩

/-! ### The strength index -/

namespace Momentum

/-- Averages as they are on the way: the gain is a number, and neither is negative. -/
structure Regular (m : Momentum (Exact K)) : Prop where
  defined : m.gain ≠ .undefined
  gain : m.gain.NonNeg
  loss : m.loss.NonNeg

/-- The index is undefined where the loss is: nothing else in it divides by zero. -/
theorem Regular.index_eq_undefined_iff {m : Momentum (Exact K)} (hm : m.Regular) :
    m.index = .undefined ↔ m.loss = .undefined := by
  obtain ⟨g, hg⟩ := Exact.ne_undefined_iff.mp hm.defined
  have hgain : 0 ≤ g := hm.gain g hg
  unfold index
  cases hl : m.loss with
  | undefined =>
      rw [hg]
      exact iff_of_true rfl rfl
  | value l =>
      have hloss : 0 ≤ l := hm.loss l hl
      by_cases hzero : l = 0
      · rw [if_pos (Exact.isZero_value_iff.mpr hzero)]
        simp [ofNat_eq]
      · have hratio : 1 + g / l ≠ 0 := by positivity
        rw [if_neg fun h => hzero (Exact.isZero_value_iff.mp h), hg, Exact.value_div hzero,
          ofNat_eq, ofNat_eq, Nat.cast_one, Exact.value_add, Exact.value_div hratio]
        simp

/-- An undefined change among the first ones counts as a loss. -/
theorem Regular.add {m : Momentum (Exact K)} (hm : m.Regular) (change : Exact K) :
    (m.add change).Regular ∧
      ((m.add change).loss = .undefined ↔ m.loss = .undefined ∨ change = .undefined) := by
  unfold Momentum.add
  by_cases hup : Scalar.lt (Scalar.ofNat 0) change = true
  · obtain ⟨c, rfl, hc⟩ := Exact.zero_lt_iff.mp hup
    rw [if_pos hup]
    refine ⟨⟨?_, hm.gain.add (Exact.nonNeg_value hc.le), hm.loss⟩, by simp⟩
    simpa using hm.defined
  · rw [if_neg hup]
    exact ⟨⟨hm.defined, hm.gain, hm.loss.add (Exact.nonNeg_abs change)⟩, by simp⟩

theorem Regular.foldl_add {m : Momentum (Exact K)} (hm : m.Regular) (changes : List (Exact K)) :
    (changes.foldl Momentum.add m).Regular ∧
      ((changes.foldl Momentum.add m).loss = .undefined ↔
        m.loss = .undefined ∨ .undefined ∈ changes) := by
  induction changes generalizing m with
  | nil => exact ⟨hm, by simp⟩
  | cons change rest ih =>
      obtain ⟨hadd, hloss⟩ := hm.add change
      obtain ⟨hrest, hiff⟩ := ih hadd
      refine ⟨hrest, ?_⟩
      rw [List.foldl_cons, hiff, hloss, List.mem_cons, or_assoc, eq_comm (b := change)]

/-- The first averages are undefined, in the loss, where one of the first changes is. -/
theorem regular_seed (changes : List (Exact K)) {n : Nat} (hn : 0 < n) :
    (seed changes n).Regular ∧
      ((seed changes n).loss = .undefined ↔ .undefined ∈ changes) := by
  have hcast : (0 : K) < n := cast_pos hn
  have hzero : (Scalar.ofNat 0 : Exact K).NonNeg := Exact.nonNeg_value (by simp)
  have hstart : (⟨Scalar.ofNat 0, Scalar.ofNat 0⟩ : Momentum (Exact K)).Regular :=
    ⟨by simp [ofNat_eq], hzero, hzero⟩
  obtain ⟨hsums, hiff⟩ := hstart.foldl_add changes
  refine ⟨⟨?_, hsums.gain.div_value hcast, hsums.loss.div_value hcast⟩, ?_⟩
  · exact fun h => hsums.defined ((Exact.div_value_eq_undefined_iff hcast.ne').mp h)
  · refine (Exact.div_value_eq_undefined_iff hcast.ne').trans (hiff.trans ?_)
    simp [ofNat_eq]

omit [IsStrictOrderedRing K] in
/-- What a change adds to the gain is a number. -/
theorem exists_rise (change : Exact K) : ∃ rise : K, 0 ≤ rise ∧
    (if Scalar.lt (Scalar.ofNat 0) change then change else Scalar.ofNat 0) = value rise := by
  by_cases hup : Scalar.lt (Scalar.ofNat 0) change = true
  · obtain ⟨c, rfl, hc⟩ := Exact.zero_lt_iff.mp hup
    exact ⟨c, hc.le, if_pos hup⟩
  · exact ⟨0, le_refl 0, by rw [if_neg hup, ofNat_eq, Nat.cast_zero]⟩

/-- What a change adds to the loss is a number. -/
theorem exists_fall (change : Exact K) : ∃ fall : K, 0 ≤ fall ∧
    (if Scalar.lt change (Scalar.ofNat 0) then Scalar.abs change else Scalar.ofNat 0) =
      value fall := by
  by_cases hdown : Scalar.lt change (Scalar.ofNat 0) = true
  · obtain ⟨c, rfl, -⟩ := Exact.lt_zero_iff.mp hdown
    exact ⟨|c|, abs_nonneg c, if_pos hdown⟩
  · exact ⟨0, le_refl 0, by rw [if_neg hdown, ofNat_eq, Nat.cast_zero]⟩

/-- An undefined change that is smoothed in counts as none. -/
theorem Regular.smooth {m : Momentum (Exact K)} (hm : m.Regular) {n : Nat} (hn : 0 < n)
    (change : Exact K) :
    (Momentum.smooth n m change).Regular ∧
      ((Momentum.smooth n m change).loss = .undefined ↔ m.loss = .undefined) := by
  have hcast : (0 : K) < n := cast_pos hn
  have hrest : (0 : K) ≤ n - 1 := sub_nonneg.mpr (Nat.one_le_cast.mpr hn)
  have hweight : (Scalar.ofNat n - Scalar.ofNat 1 : Exact K) = value ((n : K) - 1) := by
    rw [ofNat_eq, ofNat_eq, Exact.value_sub, Nat.cast_one]
  obtain ⟨rise, hrise, hgain⟩ := exists_rise change
  obtain ⟨fall, hfall, hloss⟩ := exists_fall change
  have hstep : Momentum.smooth n m change =
      ⟨(m.gain * value ((n : K) - 1) + value rise) / value (n : K),
        (m.loss * value ((n : K) - 1) + value fall) / value (n : K)⟩ := by
    rw [← ofNat_eq n, ← hweight, ← hgain, ← hloss]
    rfl
  rw [hstep]
  refine ⟨⟨?_, ?_, ?_⟩, ?_⟩
  · simpa [Exact.div_value_eq_undefined_iff hcast.ne'] using hm.defined
  · exact ((hm.gain.mul_value hrest).add (Exact.nonNeg_value hrise)).div_value hcast
  · exact ((hm.loss.mul_value hrest).add (Exact.nonNeg_value hfall)).div_value hcast
  · simp [Exact.div_value_eq_undefined_iff hcast.ne']

theorem Regular.foldl_smooth {m : Momentum (Exact K)} (hm : m.Regular) {n : Nat} (hn : 0 < n)
    (changes : List (Exact K)) :
    (changes.foldl (Momentum.smooth n) m).Regular ∧
      ((changes.foldl (Momentum.smooth n) m).loss = .undefined ↔ m.loss = .undefined) := by
  induction changes generalizing m with
  | nil => exact ⟨hm, Iff.rfl⟩
  | cons change rest ih =>
      obtain ⟨hstep, hloss⟩ := hm.smooth hn change
      obtain ⟨hrest, hiff⟩ := ih hstep
      exact ⟨hrest, hiff.trans hloss⟩

end Momentum

theorem undefinedAt_rsi_iff {n : Nat} (hn : 0 < n) {data : List (Exact K)} {i : Nat}
    (hi : i < data.length) :
    UndefinedAt (rsi data n) i ↔ i < n ∨ ∃ j ≤ n, UndefinedAt data j := by
  by_cases hin : i < n
  · exact iff_of_true (getElem?_rsi_of_lt data hi hin) (Or.inl hin)
  · obtain ⟨hseed, hloss⟩ := Momentum.regular_seed ((changes data).take n) hn
    obtain ⟨hlater, hsame⟩ := hseed.foldl_smooth hn (((changes data).drop n).take (i - n))
    rw [UndefinedAt, getElem?_rsi data hn (by omega) hi, Option.some_inj,
      hlater.index_eq_undefined_iff, hsame, hloss, undefined_mem_changes_iff hn (by omega),
      or_iff_right hin]

/-! ### The stochastic oscillator -/

/-- Where the range of a window is not a number, or empty, its %K value is 50. -/
theorem standing_eq_undefined_iff {highs lows : List (Exact K)} (hhighs : highs ≠ [])
    (hlows : lows ≠ []) {close : Exact K} :
    standing highs lows close = .undefined ↔
      close = .undefined ∧ .undefined ∉ highs ∧ .undefined ∉ lows ∧
        ∃ highest lowest, IsGreatest {x | value x ∈ highs} highest ∧
          IsLeast {x | value x ∈ lows} lowest ∧ lowest < highest := by
  have hmiddle {range : Exact K} (h : range = .undefined) :
      ¬Scalar.lt (Scalar.ofNat 0) range = true := by
    rw [h]
    exact Bool.false_ne_true
  have hfifty : (Scalar.ofNat 50 : Exact K) ≠ .undefined := Exact.ne_undefined_iff.mpr ⟨_, rfl⟩
  unfold standing
  by_cases hh : .undefined ∈ highs
  · have hrange : Scalar.largest highs - Scalar.smallest lows = .undefined :=
      Exact.sub_eq_undefined_iff.mpr (Or.inl (Exact.largest_eq_undefined hh))
    rw [if_neg (hmiddle hrange)]
    exact iff_of_false hfifty fun h => h.2.1 hh
  by_cases hl : .undefined ∈ lows
  · have hrange : Scalar.largest highs - Scalar.smallest lows = .undefined :=
      Exact.sub_eq_undefined_iff.mpr (Or.inr (Exact.smallest_eq_undefined hl))
    rw [if_neg (hmiddle hrange)]
    exact iff_of_false hfifty fun h => h.2.2.1 hl
  obtain ⟨highest, hlargest, hgreatest⟩ := Exact.exists_isGreatest hhighs hh
  obtain ⟨lowest, hsmallest, hleast⟩ := Exact.exists_isLeast hlows hl
  have hlt : Scalar.lt (Scalar.ofNat 0) (value highest - value lowest) = true ↔
      lowest < highest := by
    rw [ofNat_eq, Exact.value_sub, Exact.lt_value_iff, Nat.cast_zero, sub_pos]
  rw [hlargest, hsmallest]
  by_cases hrange : lowest < highest
  · have hdistance : highest - lowest ≠ 0 := (sub_pos.mpr hrange).ne'
    rw [if_pos (hlt.mpr hrange), ofNat_eq, Exact.value_sub, Exact.mul_eq_undefined_iff,
      Exact.div_value_eq_undefined_iff hdistance]
    simp only [Exact.sub_eq_undefined_iff, reduceCtorEq, or_false]
    exact ⟨fun hc => ⟨hc, hh, hl, highest, lowest, hgreatest, hleast, hrange⟩, fun h => h.1⟩
  · rw [if_neg fun h => hrange (hlt.mp h)]
    refine iff_of_false hfifty ?_
    rintro ⟨-, -, -, highest', lowest', hgreatest', hleast', hrange'⟩
    rw [hgreatest'.unique hgreatest, hleast'.unique hleast] at hrange'
    exact hrange hrange'

theorem undefinedAt_stochasticK_iff {n : Nat} (hn : 0 < n) {high low close : List (Exact K)}
    {i : Nat} (hhigh : i < high.length) (hlow : i < low.length) (hclose : i < close.length) :
    UndefinedAt (stochasticK high low close n) i ↔
      i + 1 < n ∨ UndefinedAt close i ∧
        (∀ j ≤ i, i < j + n → ¬UndefinedAt high j ∧ ¬UndefinedAt low j) ∧
        ∃ highest lowest, IsGreatest (lastNumbers n high i) highest ∧
          IsLeast (lastNumbers n low i) lowest ∧ lowest < highest := by
  have hc := List.getElem?_eq_getElem hclose
  unfold UndefinedAt
  rw [getElem?_stochasticK hn hhigh hlow hc, hc, Option.some_inj, Option.some_inj]
  by_cases hfull : i + 1 < n
  · rw [if_pos hfull]
    exact iff_of_true rfl (Or.inl hfull)
  · rw [if_neg hfull, standing_eq_undefined_iff (lastValues_ne_nil hn hhigh)
      (lastValues_ne_nil hn hlow), mem_lastValues_undefined_iff hhigh,
      mem_lastValues_undefined_iff hlow, setOf_mem_lastValues hhigh, setOf_mem_lastValues hlow,
      or_iff_right hfull]
    refine and_congr_right fun _ => ?_
    rw [← and_assoc]
    refine and_congr_left fun _ => ?_
    constructor
    · rintro ⟨hhighs, hlows⟩ j hj hlast
      exact ⟨fun h => hhighs ⟨j, hj, hlast, h⟩, fun h => hlows ⟨j, hj, hlast, h⟩⟩
    · intro hdefined
      exact ⟨fun ⟨j, hj, hlast, h⟩ => (hdefined j hj hlast).1 h,
        fun ⟨j, hj, hlast, h⟩ => (hdefined j hj hlast).2 h⟩

/-- The %D line is undefined while its window of the %K line is not full, and while an
undefined value of that line is in it. -/
theorem undefinedAt_stochastic_iff {k d : Nat} (hd : 0 < d) {high low close : List (Exact K)}
    {i : Nat} (hhigh : i < high.length) (hlow : i < low.length) (hclose : i < close.length) :
    UndefinedAt (stochastic high low close k d) i ↔
      i + 1 < d ∨ ∃ j ≤ i, i < j + d ∧ UndefinedAt (stochasticK high low close k) j := by
  refine undefinedAt_sma_iff hd ?_
  rw [length_stochasticK]
  exact Nat.lt_min.mpr ⟨Nat.lt_min.mpr ⟨hhigh, hlow⟩, hclose⟩

/-- Where every price is there the oscillator is undefined only at the start, until both
windows are full. -/
theorem undefinedAt_stochastic_iff_of_defined {k d : Nat} (hk : 0 < k) (hd : 0 < d)
    {high low close : List (Exact K)} {i : Nat} (hhigh : i < high.length) (hlow : i < low.length)
    (hclose : i < close.length) (hdefined : ∀ j ≤ i, ¬UndefinedAt close j) :
    UndefinedAt (stochastic high low close k d) i ↔ i + 2 < k + d := by
  have hline {j : Nat} (hj : j ≤ i) :
      UndefinedAt (stochasticK high low close k) j ↔ j + 1 < k := by
    rw [undefinedAt_stochasticK_iff hk (by omega) (by omega) (by omega)]
    exact or_iff_left fun h => hdefined j hj h.1
  rw [undefinedAt_stochastic_iff hd hhigh hlow hclose]
  constructor
  · rintro (hshort | ⟨j, hj, hlast, hundefined⟩)
    · omega
    · have hfirst := (hline hj).mp hundefined
      omega
  · intro hearly
    by_cases hshort : i + 1 < d
    · exact Or.inl hshort
    · exact Or.inr ⟨i + 1 - d, by omega, by omega, (hline (by omega)).mpr (by omega)⟩

/-! ### Every indicator -/

/-- At an index of its series, each indicator of a length that is not zero is undefined in
exactly these cases. -/
theorem undefined_exactly_when :
    (∀ (data : List (Exact K)) (n i : Nat), 0 < n → i < data.length →
      (UndefinedAt (sma data n) i ↔ i + 1 < n ∨ ∃ j ≤ i, i < j + n ∧ UndefinedAt data j) ∧
      (UndefinedAt (wma data n) i ↔ i + 1 < n ∨ ∃ j ≤ i, i < j + n ∧ UndefinedAt data j) ∧
      (UndefinedAt (ema data n) i ↔ ∃ j ≤ i, UndefinedAt data j) ∧
      (UndefinedAt (rsi data n) i ↔ i < n ∨ ∃ j ≤ n, UndefinedAt data j)) ∧
    (∀ (data : List (Exact K)) (fast slow i : Nat), i < data.length →
      (UndefinedAt (macdLine data fast slow) i ↔ ∃ j ≤ i, UndefinedAt data j)) ∧
    (∀ (high low close : List (Exact K)) (n i : Nat), 0 < n →
      i < high.length → i < low.length → i < close.length →
      (UndefinedAt (atr high low close n) i ↔
        (∃ j ≤ i, UndefinedAt high j ∨ UndefinedAt low j) ∨ ∃ j < i, UndefinedAt close j) ∧
      (UndefinedAt (stochasticK high low close n) i ↔
        i + 1 < n ∨ UndefinedAt close i ∧
          (∀ j ≤ i, i < j + n → ¬UndefinedAt high j ∧ ¬UndefinedAt low j) ∧
          ∃ highest lowest, IsGreatest (lastNumbers n high i) highest ∧
            IsLeast (lastNumbers n low i) lowest ∧ lowest < highest)) ∧
    (∀ (high low close : List (Exact K)) (k d i : Nat), 0 < k → 0 < d →
      i < high.length → i < low.length → i < close.length →
      (UndefinedAt (stochastic high low close k d) i ↔
        i + 1 < d ∨ ∃ j ≤ i, i < j + d ∧ UndefinedAt (stochasticK high low close k) j) ∧
      ((∀ j ≤ i, ¬UndefinedAt high j ∧ ¬UndefinedAt low j ∧ ¬UndefinedAt close j) →
        (UndefinedAt (stochastic high low close k d) i ↔ i + 2 < k + d))) := by
  refine ⟨?_, ?_, ?_, ?_⟩
  · intro data n i hn hi
    exact ⟨undefinedAt_sma_iff hn hi, undefinedAt_wma_iff hn hi, undefinedAt_ema_iff hi,
      undefinedAt_rsi_iff hn hi⟩
  · intro data fast slow i hi
    exact undefinedAt_macdLine_iff hi
  · intro high low close n i hn hhigh hlow hclose
    exact ⟨undefinedAt_atr_iff hhigh hlow hclose,
      undefinedAt_stochasticK_iff hn hhigh hlow hclose⟩
  · intro high low close k d i hk hd hhigh hlow hclose
    refine ⟨undefinedAt_stochastic_iff hd hhigh hlow hclose, fun hdefined => ?_⟩
    exact undefinedAt_stochastic_iff_of_defined hk hd hhigh hlow hclose
      fun j hj => (hdefined j hj).2.2

/-- Three bars, the second without a close.  The average over two bars is undefined at both
windows that the gap is in, the exponential ones stay undefined, the true range only feels the
gap one bar later, and the %K line over one bar is undefined just where the gap is. -/
theorem undefined_around_a_missing_close :
    let high : List (Exact ℚ) := [value 3, value 4, value 5]
    let low : List (Exact ℚ) := [value 1, value 2, value 3]
    let close : List (Exact ℚ) := [value 2, .undefined, value 4]
    (UndefinedAt (sma close 2) 2 ∧ UndefinedAt (ema close 2) 2 ∧ UndefinedAt (rsi close 2) 2) ∧
      UndefinedAt (macdLine close 1 2) 2 ∧
      (¬UndefinedAt (atr high low close 2) 1 ∧ UndefinedAt (stochasticK high low close 1) 1) ∧
      UndefinedAt (stochastic high low close 1 2) 2 := by
  intro high low close
  obtain ⟨haverages, hline, hranges, hsmoothed⟩ := undefined_exactly_when (K := ℚ)
  have hgap : UndefinedAt close 1 := rfl
  obtain ⟨hsma, -, hema, hrsi⟩ := haverages close 2 2 (by decide) (by decide)
  obtain ⟨hatr, -⟩ := hranges high low close 2 1 (by decide) (by decide) (by decide) (by decide)
  obtain ⟨-, hk⟩ := hranges high low close 1 1 (by decide) (by decide) (by decide) (by decide)
  obtain ⟨hd, -⟩ := hsmoothed high low close 1 2 2 (by decide) (by decide) (by decide) (by decide)
    (by decide)
  have hbar : UndefinedAt (stochasticK high low close 1) 1 := by
    refine hk.mpr (Or.inr ⟨hgap, ?_, 4, 2, ⟨⟨1, by decide, by decide, rfl⟩, ?_⟩,
      ⟨⟨1, by decide, by decide, rfl⟩, ?_⟩, by norm_num⟩)
    · intro j hj hlast
      obtain rfl : j = 1 := by omega
      exact ⟨by simp [UndefinedAt, high], by simp [UndefinedAt, low]⟩
    · rintro x ⟨j, hj, hlast, hx⟩
      obtain rfl : j = 1 := by omega
      cases hx
      exact le_refl 4
    · rintro x ⟨j, hj, hlast, hx⟩
      obtain rfl : j = 1 := by omega
      cases hx
      exact le_refl 2
  refine ⟨⟨?_, ?_, ?_⟩, ?_, ⟨?_, hbar⟩, ?_⟩
  · exact hsma.mpr (Or.inr ⟨1, by decide, by decide, hgap⟩)
  · exact hema.mpr ⟨1, by decide, hgap⟩
  · exact hrsi.mpr (Or.inr ⟨1, by decide, hgap⟩)
  · exact (hline close 1 2 2 (by decide)).mpr ⟨1, by decide, hgap⟩
  · rw [hatr]
    rintro (⟨j, hj, hprices⟩ | ⟨j, hj, hclose⟩)
    · interval_cases j <;> simp [UndefinedAt, high, low] at hprices
    · interval_cases j
      simp [UndefinedAt, close] at hclose
  · exact hd.mpr (Or.inr ⟨1, by decide, by decide, hbar⟩)

end ChartScript.Series
