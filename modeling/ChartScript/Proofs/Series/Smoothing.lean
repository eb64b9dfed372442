/-
The running averages of the strength index over exact numbers.

A change that is not a gain adds its size to the loss, both among the first changes and later,
so over numbers the average gain is made of the positive parts of the changes alone and the
average loss of their negative parts alone.  Both are then the same smoothed average, taken of
two different series, and neither needs the other to be reasoned about.

Of that average three facts are needed: where nothing it is made of is negative it is not
negative either, and zero only where all of that is zero; and it scales with what it is made
of.  Zero only where all is zero needs a length of two or more, since a smoothed average over
one value forgets what came before it.
-/
import Mathlib
import ChartScript.Proofs.Series.Definedness

namespace ChartScript.Series

open Exact (value ofNat_eq)

/-! ### The averages after some changes -/

/-- The running averages once some changes are taken in: the plain means of the first `n`, with
the later ones smoothed in. -/
def Momentum.after {α : Type} [Scalar α] (n : Nat) (changes : List α) : Momentum α :=
  (changes.drop n).foldl (Momentum.smooth n) (Momentum.seed (changes.take n) n)

/-- From index `n` on, the strength index is that of the averages of all changes up to
there. -/
theorem getElem?_rsi_after {α : Type} [Scalar α] (data : List α) {n i : Nat} (hn : 0 < n)
    (hin : n ≤ i) (hi : i < data.length) :
    (rsi data n)[i]? = some (Momentum.after n ((changes data).take i)).index := by
  rw [getElem?_rsi data hn hin hi, Momentum.after, List.drop_take, List.take_take,
    Nat.min_eq_left hin]

variable {K : Type} [Field K]

/-- The change from each number to the next. -/
def steps (data : List K) : List K :=
  List.zipWith (· - ·) (data.drop 1) data

/-- The changes from each number to the next, up to an index. -/
def changesUpTo (data : List K) (i : Nat) : Set K :=
  {c | ∃ j < i, ∃ x y, data[j]? = some x ∧ data[j + 1]? = some y ∧ c = y - x}

theorem mem_take_steps_iff {data : List K} {i : Nat} {c : K} :
    c ∈ (steps data).take i ↔ c ∈ changesUpTo data i := by
  rw [List.mem_iff_getElem?]
  constructor
  · rintro ⟨j, hj⟩
    rw [List.getElem?_take] at hj
    split at hj
    · next hlt =>
      rw [steps, List.getElem?_zipWith_eq_some] at hj
      obtain ⟨y, x, hy, hx, rfl⟩ := hj
      rw [List.getElem?_drop, Nat.add_comm] at hy
      exact ⟨j, hlt, x, y, hx, hy, rfl⟩
    · cases hj
  · rintro ⟨j, hlt, x, y, hx, hy, rfl⟩
    refine ⟨j, ?_⟩
    rw [List.getElem?_take, if_pos hlt, steps, List.getElem?_zipWith_eq_some]
    refine ⟨y, x, ?_, hx, rfl⟩
    rw [List.getElem?_drop, Nat.add_comm]
    exact hy

/-- What is done to the data is done to its changes, if it can be. -/
theorem steps_map {f g : K → K} (h : ∀ x y, f x - f y = g (x - y)) (data : List K) :
    steps (data.map f) = (steps data).map g := by
  simp only [steps, ← List.map_drop, List.zipWith_map, List.map_zipWith, h]

/-! ### The smoothed average of numbers -/

/-- Smooth a number into an average over `n` of them. -/
def smoothInto (n : Nat) (average x : K) : K :=
  (average * (n - 1) + x) / n

/-- The plain mean of the first `n` numbers, with the later ones smoothed in. -/
def smoothed (n : Nat) (xs : List K) : K :=
  (xs.drop n).foldl (smoothInto n) ((xs.take n).sum / n)

theorem foldl_smoothInto_mul (n : Nat) (a : K) :
    ∀ (xs : List K) (average : K),
      (xs.map (a * ·)).foldl (smoothInto n) (a * average) =
        a * xs.foldl (smoothInto n) average := by
  intro xs
  induction xs with
  | nil => intro average; rfl
  | cons x rest ih =>
      intro average
      have hstep : smoothInto n (a * average) (a * x) = a * smoothInto n average x := by
        unfold smoothInto
        ring
      rw [List.map_cons, List.foldl_cons, List.foldl_cons, hstep, ih]

/-- The smoothed average scales with its numbers. -/
theorem smoothed_mul (n : Nat) (a : K) (xs : List K) :
    smoothed n (xs.map (a * ·)) = a * smoothed n xs := by
  have hsum : ((xs.take n).map (a * ·)).sum / n = a * ((xs.take n).sum / n) := by
    rw [List.sum_map_mul_left, List.map_id', mul_div_assoc]
  rw [smoothed, ← List.map_drop, ← List.map_take, hsum, foldl_smoothInto_mul, smoothed]

variable [LinearOrder K] [IsStrictOrderedRing K]

theorem smoothInto_nonneg {n : Nat} (hn : 0 < n) {average x : K} (haverage : 0 ≤ average)
    (hx : 0 ≤ x) : 0 ≤ smoothInto n average x := by
  have hcast : (0 : K) < n := cast_pos hn
  have hrest : (0 : K) ≤ n - 1 := sub_nonneg.mpr (Nat.one_le_cast.mpr hn)
  unfold smoothInto
  positivity

/-- With a length of two or more an average keeps part of what it was. -/
theorem smoothInto_eq_zero_iff {n : Nat} (hn : 2 ≤ n) {average x : K} (haverage : 0 ≤ average)
    (hx : 0 ≤ x) : smoothInto n average x = 0 ↔ average = 0 ∧ x = 0 := by
  have hcast : (n : K) ≠ 0 := (cast_pos (by omega)).ne'
  have hrest : (0 : K) < n - 1 := sub_pos.mpr (Nat.one_lt_cast.mpr hn)
  rw [smoothInto, div_eq_zero_iff, or_iff_left hcast,
    add_eq_zero_iff_of_nonneg (mul_nonneg haverage hrest.le) hx, mul_eq_zero,
    or_iff_left hrest.ne']

theorem foldl_smoothInto_nonneg {n : Nat} (hn : 0 < n) :
    ∀ (xs : List K) (average : K), 0 ≤ average → (∀ x ∈ xs, 0 ≤ x) →
      0 ≤ xs.foldl (smoothInto n) average := by
  intro xs
  induction xs with
  | nil => intro average haverage _; exact haverage
  | cons x rest ih =>
      intro average haverage hxs
      obtain ⟨hx, hrest⟩ := List.forall_mem_cons.mp hxs
      exact ih _ (smoothInto_nonneg hn haverage hx) hrest

theorem foldl_smoothInto_eq_zero_iff {n : Nat} (hn : 2 ≤ n) :
    ∀ (xs : List K) (average : K), 0 ≤ average → (∀ x ∈ xs, 0 ≤ x) →
      (xs.foldl (smoothInto n) average = 0 ↔ average = 0 ∧ ∀ x ∈ xs, x = 0) := by
  intro xs
  induction xs with
  | nil => intro average _ _; simp
  | cons x rest ih =>
      intro average haverage hxs
      obtain ⟨hx, hrest⟩ := List.forall_mem_cons.mp hxs
      rw [List.foldl_cons, ih _ (smoothInto_nonneg (by omega) haverage hx) hrest,
        smoothInto_eq_zero_iff hn haverage hx, List.forall_mem_cons, and_assoc]

theorem sum_eq_zero_iff {xs : List K} (hxs : ∀ x ∈ xs, 0 ≤ x) : xs.sum = 0 ↔ ∀ x ∈ xs, x = 0 :=
  ⟨fun hsum _ hx => List.all_zero_of_le_zero_le_of_sum_eq_zero hxs hsum hx, List.sum_eq_zero⟩

theorem smoothed_nonneg {n : Nat} (hn : 0 < n) {xs : List K} (hxs : ∀ x ∈ xs, 0 ≤ x) :
    0 ≤ smoothed n xs := by
  have hfirst : 0 ≤ (xs.take n).sum :=
    List.sum_nonneg fun x hx => hxs x (List.mem_of_mem_take hx)
  exact foldl_smoothInto_nonneg hn _ _ (div_nonneg hfirst (cast_pos hn).le)
    fun x hx => hxs x (List.mem_of_mem_drop hx)

theorem smoothed_eq_zero_iff {n : Nat} (hn : 2 ≤ n) {xs : List K} (hxs : ∀ x ∈ xs, 0 ≤ x) :
    smoothed n xs = 0 ↔ ∀ x ∈ xs, x = 0 := by
  have hfirst : ∀ x ∈ xs.take n, 0 ≤ x := fun x hx => hxs x (List.mem_of_mem_take hx)
  have hlater : ∀ x ∈ xs.drop n, 0 ≤ x := fun x hx => hxs x (List.mem_of_mem_drop hx)
  have hcast : (0 : K) < n := cast_pos (by omega)
  rw [smoothed, foldl_smoothInto_eq_zero_iff hn _ _
      (div_nonneg (List.sum_nonneg hfirst) hcast.le) hlater,
    div_eq_zero_iff, or_iff_left hcast.ne', sum_eq_zero_iff hfirst, ← List.forall_mem_append,
    List.take_append_drop]

/-! ### Gains and losses apart -/

/-- The smoothed average of what `part` takes of each change up to an index. -/
def averageOf (part : K → K) (n : Nat) (data : List K) (i : Nat) : K :=
  smoothed n (((steps data).take i).map part)

/-- The average gain over the changes up to an index. -/
def averageGain (n : Nat) (data : List K) (i : Nat) : K :=
  averageOf (·⁺) n data i

/-- The average loss over the changes up to an index. -/
def averageLoss (n : Nat) (data : List K) (i : Nat) : K :=
  averageOf (·⁻) n data i

namespace Momentum

/-- One of the first changes adds its positive part to the gain and its negative part to the
loss. -/
theorem add_value (gain loss change : K) :
    Momentum.add ⟨value gain, value loss⟩ (value change) =
      ⟨value (gain + change⁺), value (loss + change⁻)⟩ := by
  unfold Momentum.add
  by_cases hup : 0 < change
  · have hlt : Scalar.lt (Scalar.ofNat 0) (value change) = true :=
      Exact.zero_lt_iff.mpr ⟨change, rfl, hup⟩
    rw [if_pos hlt, posPart_eq_self.mpr hup.le, negPart_eq_zero.mpr hup.le, add_zero,
      Exact.value_add]
  · have hle : change ≤ 0 := not_lt.mp hup
    have hnot : ¬Scalar.lt (Scalar.ofNat 0) (value change) = true := by
      rw [ofNat_eq, Nat.cast_zero, Exact.lt_value_iff]
      exact hup
    rw [if_neg hnot, posPart_eq_zero.mpr hle, negPart_eq_neg.mpr hle, add_zero, Exact.abs_value,
      abs_of_nonpos hle, Exact.value_add]

theorem foldl_add_value :
    ∀ (changes : List K) (gain loss : K),
      (changes.map value).foldl Momentum.add ⟨value gain, value loss⟩ =
        ⟨value (gain + (changes.map (·⁺)).sum), value (loss + (changes.map (·⁻)).sum)⟩ := by
  intro changes
  induction changes with
  | nil => intro gain loss; simp
  | cons change rest ih =>
      intro gain loss
      simp only [List.map_cons, List.foldl_cons, List.sum_cons, add_value, ih, add_assoc]

/-- The first averages are plain means. -/
theorem seed_value {n : Nat} (hn : 0 < n) (changes : List K) :
    seed (changes.map value) n =
      ⟨value ((changes.map (·⁺)).sum / n), value ((changes.map (·⁻)).sum / n)⟩ := by
  have hcast : (n : K) ≠ 0 := (cast_pos hn).ne'
  simp only [seed, ofNat_eq, Nat.cast_zero, foldl_add_value, zero_add, Exact.value_div hcast]

/-- What a later change smooths in is the same: its positive and its negative part. -/
theorem smooth_value {n : Nat} (hn : 0 < n) (gain loss change : K) :
    Momentum.smooth n ⟨value gain, value loss⟩ (value change) =
      ⟨value (smoothInto n gain change⁺), value (smoothInto n loss change⁻)⟩ := by
  have hcast : (n : K) ≠ 0 := (cast_pos hn).ne'
  have hgain : (if Scalar.lt (Scalar.ofNat 0) (value change) then value change
      else Scalar.ofNat 0) = value change⁺ := by
    rw [ofNat_eq, Nat.cast_zero]
    by_cases hup : 0 < change
    · rw [if_pos (Exact.lt_value_iff.mpr hup), posPart_eq_self.mpr hup.le]
    · rw [if_neg fun h => hup (Exact.lt_value_iff.mp h), posPart_eq_zero.mpr (not_lt.mp hup)]
  have hloss : (if Scalar.lt (value change) (Scalar.ofNat 0) then Scalar.abs (value change)
      else Scalar.ofNat 0) = value change⁻ := by
    rw [ofNat_eq, Nat.cast_zero]
    by_cases hdown : change < 0
    · rw [if_pos (Exact.lt_value_iff.mpr hdown), Exact.abs_value, abs_of_neg hdown,
        negPart_eq_neg.mpr hdown.le]
    · rw [if_neg fun h => hdown (Exact.lt_value_iff.mp h), negPart_eq_zero.mpr (not_lt.mp hdown)]
  simp only [Momentum.smooth, hgain, hloss]
  simp only [ofNat_eq, Nat.cast_one, Exact.value_sub, Exact.value_mul, Exact.value_add,
    Exact.value_div hcast, smoothInto]

theorem foldl_smooth_value {n : Nat} (hn : 0 < n) :
    ∀ (changes : List K) (gain loss : K),
      (changes.map value).foldl (Momentum.smooth n) ⟨value gain, value loss⟩ =
        ⟨value ((changes.map (·⁺)).foldl (smoothInto n) gain),
          value ((changes.map (·⁻)).foldl (smoothInto n) loss)⟩ := by
  intro changes
  induction changes with
  | nil => intro gain loss; rfl
  | cons change rest ih =>
      intro gain loss
      simp only [List.map_cons, List.foldl_cons, smooth_value hn, ih]

/-- The running averages are the smoothed averages of the positive and of the negative
parts. -/
theorem after_value {n : Nat} (hn : 0 < n) (changes : List K) :
    after n (changes.map value) =
      ⟨value (smoothed n (changes.map (·⁺))), value (smoothed n (changes.map (·⁻)))⟩ := by
  simp only [after, ← List.map_drop, ← List.map_take, seed_value hn, foldl_smooth_value hn,
    smoothed]

end Momentum

omit [IsStrictOrderedRing K] in
theorem changes_value (data : List K) : changes (data.map value) = (steps data).map value := by
  simp only [changes, steps, ← List.map_drop, List.zipWith_map, List.map_zipWith, Exact.value_sub]

/-- The averages that the strength index at an index is taken of. -/
theorem after_changes {n : Nat} (hn : 0 < n) (data : List K) (i : Nat) :
    Momentum.after n ((changes (data.map value)).take i) =
      ⟨value (averageGain n data i), value (averageLoss n data i)⟩ := by
  rw [changes_value, ← List.map_take, Momentum.after_value hn, averageGain, averageLoss,
    averageOf, averageOf]

/-! ### What is known of the averages -/

theorem averageOf_nonneg {part : K → K} (hpart : ∀ c, 0 ≤ part c) {n : Nat} (hn : 0 < n)
    (data : List K) (i : Nat) : 0 ≤ averageOf part n data i :=
  smoothed_nonneg hn (List.forall_mem_map.mpr fun c _ => hpart c)

theorem averageOf_eq_zero_iff {part : K → K} (hpart : ∀ c, 0 ≤ part c) {n : Nat} (hn : 2 ≤ n)
    (data : List K) (i : Nat) :
    averageOf part n data i = 0 ↔ ∀ c ∈ changesUpTo data i, part c = 0 := by
  rw [averageOf, smoothed_eq_zero_iff hn (List.forall_mem_map.mpr fun c _ => hpart c)]
  simp only [List.forall_mem_map, mem_take_steps_iff]

/-- There is no gain on average exactly where no change so far is positive. -/
theorem averageGain_eq_zero_iff {n : Nat} (hn : 2 ≤ n) (data : List K) (i : Nat) :
    averageGain n data i = 0 ↔ ∀ c ∈ changesUpTo data i, c ≤ 0 := by
  rw [averageGain, averageOf_eq_zero_iff (fun c => posPart_nonneg c) hn]
  simp only [posPart_eq_zero]

/-- There is no loss on average exactly where no change so far is negative. -/
theorem averageLoss_eq_zero_iff {n : Nat} (hn : 2 ≤ n) (data : List K) (i : Nat) :
    averageLoss n data i = 0 ↔ ∀ c ∈ changesUpTo data i, 0 ≤ c := by
  rw [averageLoss, averageOf_eq_zero_iff (fun c => negPart_nonneg c) hn]
  simp only [negPart_eq_zero]

/-! ### Data moved, stretched and turned over -/

omit [LinearOrder K] [IsStrictOrderedRing K] in
theorem averageOf_map {f g : K → K} (h : ∀ x y, f x - f y = g (x - y)) (part : K → K) (n : Nat)
    (data : List K) (i : Nat) :
    averageOf part n (data.map f) i = averageOf (fun c => part (g c)) n data i := by
  rw [averageOf, steps_map h, ← List.map_take, List.map_map]
  rfl

omit [LinearOrder K] [IsStrictOrderedRing K] in
/-- Moving the data changes no average; stretching them stretches it. -/
theorem averageOf_affine {part : K → K} {a : K} (hpart : ∀ c, part (a * c) = a * part c)
    (n : Nat) (b : K) (data : List K) (i : Nat) :
    averageOf part n (data.map fun x => a * x + b) i = a * averageOf part n data i := by
  have hstep : ∀ x y : K, a * x + b - (a * y + b) = a * (x - y) := by
    intro x y
    ring
  rw [averageOf_map hstep]
  simp only [hpart]
  rw [averageOf, averageOf, ← smoothed_mul, List.map_map]
  rfl

omit [IsStrictOrderedRing K] in
/-- Turned over, data gain what they lost. -/
theorem averageGain_neg (n : Nat) (data : List K) (i : Nat) :
    averageGain n (data.map (- ·)) i = averageLoss n data i := by
  rw [averageGain, averageOf_map fun x y => (neg_sub' x y).symm]
  simp only [posPart_neg, averageLoss]

omit [IsStrictOrderedRing K] in
theorem averageLoss_neg (n : Nat) (data : List K) (i : Nat) :
    averageLoss n (data.map (- ·)) i = averageGain n data i := by
  rw [averageLoss, averageOf_map fun x y => (neg_sub' x y).symm]
  simp only [negPart_neg, averageGain]

theorem posPart_mul {a : K} (ha : 0 ≤ a) (c : K) : (a * c)⁺ = a * c⁺ := by
  rw [posPart_def, posPart_def, mul_max_of_nonneg _ _ ha, mul_zero]

theorem negPart_mul {a : K} (ha : 0 ≤ a) (c : K) : (a * c)⁻ = a * c⁻ := by
  rw [← posPart_neg, ← posPart_neg, ← mul_neg, posPart_mul ha]

end ChartScript.Series
