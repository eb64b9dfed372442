/-
The moving averages over exact numbers.

Where it is defined, each moving average is a mean of values up to there, with shares that do
not depend on the data: equal ones over the last `n` values, ones that fall evenly over the last
`n` values, or ones that fade over all values so far.  This needs that the divisor of the
weighted average is the sum of its weights, and that the share a new value has in the
exponential one is between 0 and 1.

What is said here about the three is said once, of such means: they commute with linear
combinations and constants, they grow with the data, and they lie between the least and the
greatest of the values they are made of.  The MACD line is the difference of two of them, so a
constant cancels.
-/
import Mathlib
import ChartScript.Proofs.Series.Definedness
import ChartScript.Proofs.Series.Mean

namespace ChartScript.Series

open Exact (value ofNat_eq)

/-- The moving averages. -/
inductive Average where
  | simple
  | weighted
  | exponential

namespace Average

/-- The average of a given length. -/
def series {α : Type} [Scalar α] : Average → List α → Nat → List α
  | simple => sma
  | weighted => wma
  | exponential => ema

/-- How many values up to index `i` an average of length `n` is made of there. -/
def span : Average → (n i : Nat) → Nat
  | simple, n, _ => n
  | weighted, n, _ => n
  | exponential, _, i => i + 1

/-- The shares of these values, latest first. -/
def shares {K : Type} [Field K] : Average → (n i : Nat) → List K
  | simple, n, _ => List.replicate n (1 / (n : K))
  | weighted, n, _ => (countdown n).map (1 / ((n : K) * (n + 1) / 2) * ·)
  | exponential, n, i => fading (2 / ((n : K) + 1)) i

end Average

variable {K : Type} [Field K] [LinearOrder K]

/-! ### Averages of numbers are means -/

theorem sum_value (xs : List K) :
    (xs.map value).foldl (· + ·) (Scalar.ofNat 0) = value xs.sum := by
  rw [ofNat_eq, Nat.cast_zero, List.foldl_map, List.sum_eq_foldl]
  exact List.foldl_hom value Exact.value_add

theorem weightedSum_value : ∀ (xs : List K) (sum : K),
    weightedSum xs.length (value sum) (xs.map value) =
      value (sum + mean (countdown xs.length) xs) := by
  intro xs
  induction xs with
  | nil => intro sum; simp [weightedSum, countdown]
  | cons x rest ih =>
      intro sum
      rw [List.map_cons, List.length_cons, weightedSum, ofNat_eq, Exact.value_mul,
        Exact.value_add, Nat.add_sub_cancel, ih, countdown, mean_cons, mul_comm x, add_assoc]

/-- Mixing each value in leaves the shares of the values before it faded. -/
theorem foldl_mix_value (share : K) : ∀ (later : List K) (seed : K),
    (later.map value).foldl (mix (value share)) (value seed) =
      value (mean (fading share later.length) (seed :: later).reverse) := by
  intro later
  induction later using List.reverseRecOn with
  | nil => intro seed; simp [fading]
  | append_singleton rest x ih =>
      intro seed
      have hstep : ∀ average : K,
          mix (value share) (value average) (value x) =
            value (x * share + average * (1 - share)) := by
        intro average
        rw [mix, ofNat_eq, Nat.cast_one, Exact.value_sub, Exact.value_mul, Exact.value_mul,
          Exact.value_add]
      have hlast : (seed :: (rest ++ [x])).reverse = x :: (seed :: rest).reverse := by
        rw [← List.cons_append, List.reverse_append]
        rfl
      rw [List.map_append, List.foldl_append, ih, List.map_cons, List.map_nil, List.foldl_cons,
        List.foldl_nil, hstep, List.length_append, List.length_singleton, fading, hlast,
        mean_cons, mean_map_mul]
      congr 1
      ring

variable [IsStrictOrderedRing K]

/-- A plain average is a mean over its window, whatever is in front of it. -/
theorem getElem?_sma_window {n : Nat} (hn : 0 < n) {data : List (Exact K)} {i : Nat}
    (hi : i < data.length) (hfull : n ≤ i + 1) {xs : List K}
    (hwindow : lastValues n data i = xs.map value) :
    (sma data n)[i]? = some (value (mean (Average.simple.shares n i) xs)) := by
  have hcast : (n : K) ≠ 0 := (cast_pos hn).ne'
  have hlength : xs.length = n := by
    rw [← List.length_map value, ← hwindow, length_lastValues hi hfull]
  have hmean := mean_replicate (1 / (n : K)) xs
  rw [hlength] at hmean
  rw [sma, getElem?_overWindows hn _ _ hi, if_neg (by omega), hwindow, sum_value, ofNat_eq,
    Exact.value_div hcast, Average.shares, hmean, div_eq_mul_one_div, mul_comm]

theorem getElem?_sma_value {n : Nat} (hn : 0 < n) {data : List K} {i : Nat}
    (hi : i < data.length) (hfull : n ≤ i + 1) :
    (sma (data.map value) n)[i]? =
      some (value (mean (Average.simple.shares n i) (lastValues n data i))) :=
  getElem?_sma_window hn (by rwa [List.length_map]) hfull (lastValues_map value n data i)

theorem getElem?_wma_value {n : Nat} (hn : 0 < n) {data : List K} {i : Nat}
    (hi : i < data.length) (hfull : n ≤ i + 1) :
    (wma (data.map value) n)[i]? =
      some (value (mean (Average.weighted.shares n i) (lastValues n data i))) := by
  have hsum := weightedSum_value (lastValues n data i) 0
  rw [length_lastValues hi hfull, zero_add] at hsum
  rw [wma, getElem?_overWindows hn _ _ (by rwa [List.length_map]), if_neg (by omega),
    lastValues_map, weights_eq, ofNat_eq 0, Nat.cast_zero, hsum,
    Exact.value_div (weights_pos hn).ne', Average.shares, mean_map_mul, div_eq_mul_one_div,
    mul_comm]

/-- The exponential average is a mean for every length, none included. -/
theorem getElem?_ema_value (n : Nat) {data : List K} {i : Nat} (hi : i < data.length) :
    (ema (data.map value) n)[i]? =
      some (value (mean (Average.exponential.shares n i) (lastValues (i + 1) data i))) := by
  obtain ⟨seed, later, hdata⟩ : ∃ seed later, data.take (i + 1) = seed :: later :=
    List.exists_cons_of_ne_nil (by simpa using List.ne_nil_of_length_pos (by omega))
  have hlength : later.length = i := by
    have htake := congrArg List.length hdata
    rw [List.length_take, List.length_cons] at htake
    omega
  have hvalues : (data.map value).take (i + 1) = value seed :: later.map value := by
    rw [← List.map_take, hdata, List.map_cons]
  rw [getElem?_ema n (by rwa [List.length_map]) hvalues, emaShare_eq, foldl_mix_value, hlength,
    lastValues_succ, hdata, Average.shares]

namespace Average

/-- An average is undefined just until it has all its values. -/
theorem undefinedAt_series_iff (average : Average) {n : Nat} (hn : 0 < n) {data : List K}
    {i : Nat} (hi : i < data.length) :
    UndefinedAt (average.series (data.map value) n) i ↔ i + 1 < average.span n i := by
  have hlength : i < (data.map value).length := by rwa [List.length_map]
  have hdefined := not_undefinedAt_value data
  cases average with
  | simple =>
      rw [series, undefinedAt_sma_iff hn hlength, span]
      exact or_iff_left fun ⟨j, _, _, hj⟩ => hdefined j hj
  | weighted =>
      rw [series, undefinedAt_wma_iff hn hlength, span]
      exact or_iff_left fun ⟨j, _, _, hj⟩ => hdefined j hj
  | exponential =>
      rw [series, undefinedAt_ema_iff hlength, span]
      exact iff_of_false (fun ⟨j, _, hj⟩ => hdefined j hj) (lt_irrefl _)

/-- With all its values an average is their mean. -/
theorem getElem?_series (average : Average) {n : Nat} (hn : 0 < n) {data : List K} {i : Nat}
    (hi : i < data.length) (hfull : average.span n i ≤ i + 1) :
    (average.series (data.map value) n)[i]? =
      some (value (mean (average.shares n i) (lastValues (average.span n i) data i))) := by
  cases average with
  | simple => exact getElem?_sma_value hn hi hfull
  | weighted => exact getElem?_wma_value hn hi hfull
  | exponential => exact getElem?_ema_value n hi

omit [LinearOrder K] [IsStrictOrderedRing K] in
theorem length_shares (average : Average) (n i : Nat) :
    (average.shares n i : List K).length = average.span n i := by
  cases average with
  | simple => exact List.length_replicate
  | weighted => rw [shares, List.length_map, length_countdown, span]
  | exponential => exact length_fading _ i

/-- No share is negative, and together they are one. -/
theorem areShares (average : Average) {n : Nat} (hn : 0 < n) (i : Nat) :
    AreShares (average.shares n i : List K) := by
  cases average with
  | simple => exact areShares_replicate hn
  | weighted => exact areShares_countdown hn
  | exponential =>
      have hone : (1 : K) ≤ n := Nat.one_le_cast.mpr hn
      have hpositive : (0 : K) < n + 1 := by linarith
      refine areShares_fading (div_nonneg zero_le_two hpositive.le) ?_ i
      rw [div_le_one hpositive]
      linarith

end Average

/-- A plain average of numbers between two bounds is between them, whatever is in front of its
window. -/
theorem sma_between {n : Nat} (hn : 0 < n) {data : List (Exact K)} {i : Nat}
    (hi : i < data.length) (hfull : n ≤ i + 1) {low high : K}
    (hwindow : ∀ a ∈ lastValues n data i, ∃ x, a = value x ∧ low ≤ x ∧ x ≤ high) :
    ∃ v, (sma data n)[i]? = some (value v) ∧ low ≤ v ∧ v ≤ high := by
  have hdefined : .undefined ∉ lastValues n data i := by
    intro hmem
    obtain ⟨x, hx, -⟩ := hwindow _ hmem
    cases hx
  obtain ⟨xs, hxs⟩ := Exact.exists_map_value hdefined
  have hbounds : ∀ x ∈ xs, low ≤ x ∧ x ≤ high := by
    intro x hx
    obtain ⟨y, hy, hboth⟩ := hwindow (value x) (hxs ▸ List.mem_map_of_mem hx)
    cases hy
    exact hboth
  have hlength : (Average.simple.shares n i : List K).length = xs.length := by
    rw [Average.simple.length_shares, ← List.length_map value, ← hxs, length_lastValues hi hfull,
      Average.span]
  have hshares : AreShares (Average.simple.shares n i : List K) := Average.simple.areShares hn i
  exact ⟨_, getElem?_sma_window hn hi hfull hxs,
    hshares.le_mean hlength fun x hx => (hbounds x hx).1,
    hshares.mean_le hlength fun x hx => (hbounds x hx).2⟩

/-! ### Linear combinations -/

omit [LinearOrder K] [IsStrictOrderedRing K] in
/-- Means over the last values of a linear combination. -/
theorem mean_lastValues_combination {shares : List K} {n i : Nat} (hshares : shares.length = n)
    {x y : List K} (hlength : x.length = y.length) (hi : i < x.length) (hfull : n ≤ i + 1)
    (a b c : K) :
    mean shares (lastValues n (List.zipWith (fun u v => a * u + b * v + c) x y) i) =
      a * mean shares (lastValues n x i) + b * mean shares (lastValues n y i) +
        c * shares.sum := by
  have hx : (lastValues n x i).length = n := length_lastValues hi hfull
  have hy : (lastValues n y i).length = n := length_lastValues (hlength ▸ hi) hfull
  rw [lastValues_zipWith _ _ hlength, mean_combination a b c _ _ _ (hshares.trans hx.symm)
    (hx.trans hy.symm)]

theorem getElem?_macdLine_value (fast slow : Nat) {data : List K} {i : Nat}
    (hi : i < data.length) :
    (macdLine (data.map value) fast slow)[i]? =
      some (value (mean (Average.exponential.shares fast i) (lastValues (i + 1) data i) -
        mean (Average.exponential.shares slow i) (lastValues (i + 1) data i))) :=
  getElem?_macdLine (getElem?_ema_value fast hi) (getElem?_ema_value slow hi)

/-- The MACD line commutes with linear combinations, and a constant cancels. -/
theorem macdLine_combination (fast slow : Nat) {x y : List K} (hlength : x.length = y.length)
    {i : Nat} (hi : i < x.length) :
    ∃ r s, (macdLine (x.map value) fast slow)[i]? = some (value r) ∧
      (macdLine (y.map value) fast slow)[i]? = some (value s) ∧
      ∀ a b c, (macdLine ((List.zipWith (fun u v => a * u + b * v + c) x y).map value)
        fast slow)[i]? = some (value (a * r + b * s)) := by
  refine ⟨_, _, getElem?_macdLine_value fast slow hi,
    getElem?_macdLine_value fast slow (hlength ▸ hi), ?_⟩
  intro a b c
  have hcombined : i < (List.zipWith (fun u v => a * u + b * v + c) x y).length := by
    rw [List.length_zipWith, ← hlength, Nat.min_self]
    exact hi
  have hmean : ∀ n, mean (Average.exponential.shares n i)
      (lastValues (i + 1) (List.zipWith (fun u v => a * u + b * v + c) x y) i) =
        a * mean (Average.exponential.shares n i) (lastValues (i + 1) x i) +
          b * mean (Average.exponential.shares n i) (lastValues (i + 1) y i) + c := by
    intro n
    have hcount : (Average.exponential.shares n i : List K).length = i + 1 := length_fading _ i
    rw [mean_lastValues_combination hcount hlength hi (le_refl _), Average.shares, sum_fading,
      mul_one]
  rw [getElem?_macdLine_value fast slow hcombined, hmean, hmean]
  congr 2
  ring

/-- Adding a constant to the data leaves the MACD line as it is. -/
theorem macdLine_add_const (fast slow : Nat) (x : List K) (c : K) :
    macdLine ((x.map (· + c)).map value) fast slow = macdLine (x.map value) fast slow := by
  refine List.ext_getElem? fun i => ?_
  by_cases hi : i < x.length
  · obtain ⟨r, s, hr, -, hcombined⟩ := macdLine_combination fast slow (rfl : x.length = x.length) hi
    have hmoved : List.zipWith (fun u v => 1 * u + 0 * v + c) x x = x.map (· + c) := by
      simp [List.zipWith_self]
    rw [← hmoved, hcombined 1 0 c, hr, one_mul, zero_mul, add_zero]
  · rw [List.getElem?_eq_none (by simpa using hi), List.getElem?_eq_none (by simpa using hi)]

omit [IsStrictOrderedRing K] in
/-- Exchanging fast and slow negates the MACD line, undefined values or not. -/
theorem macdLine_swap (data : List (Exact K)) (fast slow : Nat) :
    macdLine data slow fast = (macdLine data fast slow).map (- ·) := by
  have hneg : ∀ a b : Exact K, b - a = -(a - b) := by
    intro a b
    cases a with
    | undefined => cases b <;> rfl
    | value x =>
        cases b with
        | undefined => rfl
        | value y => exact congrArg value (neg_sub x y).symm
  rw [macdLine, macdLine, List.zipWith_comm, List.map_zipWith]
  exact congrArg (fun f => List.zipWith f (ema data fast) (ema data slow))
    (funext fun a => funext fun b => hneg a b)

/-! ### Least and greatest -/

omit [LinearOrder K] [IsStrictOrderedRing K] in
theorem undefined_not_mem_lastValues (n : Nat) (data : List K) (i : Nat) :
    .undefined ∉ lastValues n (data.map value) i := by
  rw [lastValues_map]
  simp

omit [IsStrictOrderedRing K] in
/-- Among the last values up to an index there is a least one. -/
theorem exists_isLeast_lastNumbers {n : Nat} (hn : 0 < n) {data : List K} {i : Nat}
    (hi : i < data.length) : ∃ low, IsLeast (lastNumbers n (data.map value) i) low := by
  have hlength : i < (data.map value).length := by rwa [List.length_map]
  obtain ⟨low, -, hleast⟩ :=
    Exact.exists_isLeast (lastValues_ne_nil hn hlength) (undefined_not_mem_lastValues n data i)
  exact ⟨low, setOf_mem_lastValues hlength ▸ hleast⟩

omit [IsStrictOrderedRing K] in
theorem exists_isGreatest_lastNumbers {n : Nat} (hn : 0 < n) {data : List K} {i : Nat}
    (hi : i < data.length) : ∃ high, IsGreatest (lastNumbers n (data.map value) i) high := by
  have hlength : i < (data.map value).length := by rwa [List.length_map]
  obtain ⟨high, -, hgreatest⟩ :=
    Exact.exists_isGreatest (lastValues_ne_nil hn hlength) (undefined_not_mem_lastValues n data i)
  exact ⟨high, setOf_mem_lastValues hlength ▸ hgreatest⟩

namespace Average

omit [IsStrictOrderedRing K] in
theorem span_pos (average : Average) {n : Nat} (hn : 0 < n) (i : Nat) : 0 < average.span n i := by
  cases average with
  | simple => exact hn
  | weighted => exact hn
  | exponential => exact Nat.succ_pos i

/-- An average of a linear combination is that of the averages, and a constant stays. -/
theorem getElem?_combination (average : Average) {n : Nat} (hn : 0 < n) {x y : List K}
    (hlength : x.length = y.length) {i : Nat} (hi : i < x.length)
    (hfull : average.span n i ≤ i + 1) (a b c : K) :
    (average.series ((List.zipWith (fun u v => a * u + b * v + c) x y).map value) n)[i]? =
      some (value (a * mean (average.shares n i) (lastValues (average.span n i) x i) +
        b * mean (average.shares n i) (lastValues (average.span n i) y i) + c)) := by
  have hcombined : i < (List.zipWith (fun u v => a * u + b * v + c) x y).length := by
    rw [List.length_zipWith, ← hlength, Nat.min_self]
    exact hi
  rw [average.getElem?_series hn hcombined hfull,
    mean_lastValues_combination (average.length_shares n i) hlength hi hfull,
    (average.areShares hn i).total, mul_one]

/-- An average is between the least and the greatest of its values. -/
theorem exists_bounds (average : Average) {n : Nat} (hn : 0 < n) {data : List K} {i : Nat}
    (hi : i < data.length) (hfull : average.span n i ≤ i + 1) :
    ∃ low high, IsLeast (lastNumbers (average.span n i) (data.map value) i) low ∧
      IsGreatest (lastNumbers (average.span n i) (data.map value) i) high ∧
      low ≤ mean (average.shares n i) (lastValues (average.span n i) data i) ∧
      mean (average.shares n i) (lastValues (average.span n i) data i) ≤ high := by
  obtain ⟨low, hleast⟩ := exists_isLeast_lastNumbers (average.span_pos hn i) hi
  obtain ⟨high, hgreatest⟩ := exists_isGreatest_lastNumbers (average.span_pos hn i) hi
  have hshares : AreShares (average.shares n i : List K) := average.areShares hn i
  have hlength : (average.shares n i : List K).length =
      (lastValues (average.span n i) data i).length := by
    rw [average.length_shares, length_lastValues hi hfull]
  have hmem : ∀ u ∈ lastValues (average.span n i) data i,
      u ∈ lastNumbers (average.span n i) (data.map value) i := by
    intro u hu
    rw [lastNumbers_value hi]
    exact hu
  exact ⟨low, high, hleast, hgreatest,
    hshares.le_mean hlength fun u hu => hleast.2 (hmem u hu),
    hshares.mean_le hlength fun u hu => hgreatest.2 (hmem u hu)⟩

end Average

/-! ### All of them -/

/-- Where it is defined, a moving average of numbers commutes with linear combinations and
constants, grows with the data, and lies between the least and the greatest of its values.  The
MACD line commutes with linear combinations, a constant leaves it as it is, and exchanging fast
and slow negates it. -/
theorem averages_are_means :
    (∀ (average : Average) (x y : List K) (n i : Nat), 0 < n → x.length = y.length →
      i < x.length → ¬UndefinedAt (average.series (x.map value) n) i →
      ∃ r s, (average.series (x.map value) n)[i]? = some (value r) ∧
        (average.series (y.map value) n)[i]? = some (value s) ∧
        (∀ a b c, (average.series ((List.zipWith (fun u v => a * u + b * v + c) x y).map value)
          n)[i]? = some (value (a * r + b * s + c))) ∧
        (List.Forall₂ (· ≤ ·) x y → r ≤ s) ∧
        ∃ low high, IsLeast (lastNumbers (average.span n i) (x.map value) i) low ∧
          IsGreatest (lastNumbers (average.span n i) (x.map value) i) high ∧
          low ≤ r ∧ r ≤ high) ∧
    (∀ (x y : List K) (fast slow i : Nat), x.length = y.length → i < x.length →
      ∃ r s, (macdLine (x.map value) fast slow)[i]? = some (value r) ∧
        (macdLine (y.map value) fast slow)[i]? = some (value s) ∧
        ∀ a b c, (macdLine ((List.zipWith (fun u v => a * u + b * v + c) x y).map value)
          fast slow)[i]? = some (value (a * r + b * s))) ∧
    (∀ (x : List K) (c : K) (fast slow : Nat),
      macdLine ((x.map (· + c)).map value) fast slow = macdLine (x.map value) fast slow) ∧
    (∀ (x : List K) (fast slow : Nat),
      macdLine (x.map value) slow fast = (macdLine (x.map value) fast slow).map (- ·)) := by
  refine ⟨?_, ?_, ?_, ?_⟩
  · intro average x y n i hn hlength hi hdefined
    have hfull : average.span n i ≤ i + 1 :=
      not_lt.mp fun h => hdefined ((average.undefinedAt_series_iff hn hi).mpr h)
    refine ⟨_, _, average.getElem?_series hn hi hfull,
      average.getElem?_series hn (hlength ▸ hi) hfull,
      average.getElem?_combination hn hlength hi hfull, ?_, average.exists_bounds hn hi hfull⟩
    intro hle
    exact mean_le_mean (average.areShares hn i).nonneg (forall₂_lastValues _ hle i)
  · intro x y fast slow i hlength hi
    exact macdLine_combination fast slow hlength hi
  · intro x c fast slow
    exact macdLine_add_const fast slow x c
  · intro x fast slow
    exact macdLine_swap (x.map value) fast slow

/-- A weighted average of the last two of three values, of smaller and of larger ones, of a
combination of both, and between the least and the greatest of the two; and a MACD line that a
constant leaves as it is. -/
theorem averages_of_three_closes :
    let x : List ℚ := [1, 2, 4]
    let y : List ℚ := [1, 3, 5]
    (∃ r s, (wma (x.map value) 2)[2]? = some (value r) ∧ (wma (y.map value) 2)[2]? = some (value s) ∧
      (wma ((List.zipWith (fun u v => 2 * u + 3 * v + 1) x y).map value) 2)[2]? =
        some (value (2 * r + 3 * s + 1)) ∧
      r ≤ s ∧ 2 ≤ r ∧ r ≤ 4) ∧
    macdLine ((x.map (· + 7)).map value) 1 2 = macdLine (x.map value) 1 2 := by
  intro x y
  obtain ⟨haverages, -, hconstant, -⟩ := averages_are_means (K := ℚ)
  have hdefined : ¬UndefinedAt (Average.weighted.series (x.map value) 2) 2 := by
    rw [Average.undefinedAt_series_iff _ (by decide) (by decide)]
    decide
  obtain ⟨r, s, hr, hs, hcombined, hgrows, low, high, hleast, hgreatest, hlow, hhigh⟩ :=
    haverages .weighted x y 2 2 (by decide) rfl (by decide) hdefined
  have hends : ∀ u ∈ lastNumbers 2 (x.map value) 2, 2 ≤ u ∧ u ≤ 4 := by
    rintro u ⟨j, hj, hlast, hu⟩
    obtain rfl | rfl : j = 1 ∨ j = 2 := by omega
    · cases hu
      norm_num
    · cases hu
      norm_num
  refine ⟨⟨r, s, hr, hs, hcombined 2 3 1, hgrows ?_, ?_, ?_⟩, hconstant x 7 1 2⟩
  · simp only [x, y, List.forall₂_cons, List.Forall₂.nil]
    norm_num
  · exact (hends low hleast.1).1.trans hlow
  · exact hhigh.trans (hends high hgreatest.1).2

end ChartScript.Series
