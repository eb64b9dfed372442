/-
Means of numbers with given shares.

A mean counts each number with a share of its own.  What makes it one is that no share is
negative and that together they are one: then it lies between any bounds of the numbers, grows
with them, and commutes with taking linear combinations and with adding a constant.

Three lists of shares are made here, each for the numbers latest first: equal shares, shares
that fall by the same amount from each number to the one before it, and shares that fade by the
same factor.
-/
import Mathlib

namespace ChartScript.Series

variable {K : Type} [Field K]

/-- The sum of some numbers, each counted with its share. -/
def mean (shares xs : List K) : K :=
  (List.zipWith (· * ·) shares xs).sum

@[simp] theorem mean_nil (xs : List K) : mean [] xs = 0 := rfl

@[simp] theorem mean_cons (s : K) (shares : List K) (x : K) (xs : List K) :
    mean (s :: shares) (x :: xs) = s * x + mean shares xs :=
  List.sum_cons

/-- Stretched shares stretch the mean. -/
theorem mean_map_mul (a : K) : ∀ shares xs : List K,
    mean (shares.map (a * ·)) xs = a * mean shares xs := by
  intro shares
  induction shares with
  | nil => intro xs; simp
  | cons s rest ih =>
      intro xs
      cases xs with
      | nil => simp [mean]
      | cons x later =>
          rw [List.map_cons, mean_cons, mean_cons, ih, mul_add, mul_assoc]

/-- The mean of a linear combination is that of the means, and a constant counts with all
shares. -/
theorem mean_combination (a b c : K) : ∀ shares xs ys : List K,
    shares.length = xs.length → xs.length = ys.length →
    mean shares (List.zipWith (fun x y => a * x + b * y + c) xs ys) =
      a * mean shares xs + b * mean shares ys + c * shares.sum := by
  intro shares
  induction shares with
  | nil => intro xs ys _ _; simp
  | cons s rest ih =>
      intro xs ys hxs hys
      obtain ⟨x, xs, rfl⟩ := List.exists_cons_of_length_eq_add_one hxs.symm
      obtain ⟨y, ys, rfl⟩ := List.exists_cons_of_length_eq_add_one hys.symm
      have hrest := ih xs ys (Nat.succ.inj hxs) (Nat.succ.inj hys)
      rw [List.zipWith_cons_cons, mean_cons, mean_cons, mean_cons, hrest, List.sum_cons]
      ring

theorem mean_const (c : K) : ∀ shares xs : List K, shares.length = xs.length →
    mean shares (xs.map fun _ => c) = c * shares.sum := by
  intro shares
  induction shares with
  | nil => intro xs _; simp
  | cons s rest ih =>
      intro xs hxs
      obtain ⟨x, xs, rfl⟩ := List.exists_cons_of_length_eq_add_one hxs.symm
      rw [List.map_cons, mean_cons, ih xs (Nat.succ.inj hxs), List.sum_cons]
      ring

/-- With equal shares the mean is the sum, stretched. -/
theorem mean_replicate (s : K) : ∀ xs : List K,
    mean (List.replicate xs.length s) xs = s * xs.sum := by
  intro xs
  induction xs with
  | nil => simp
  | cons x rest ih =>
      rw [List.length_cons, List.replicate_succ, mean_cons, ih, List.sum_cons, mul_add]

/-! ### Shares that fall evenly -/

/-- The numbers from `n` down to one. -/
def countdown : Nat → List K
  | 0 => []
  | n + 1 => ((n + 1 : Nat) : K) :: countdown n

@[simp] theorem length_countdown (n : Nat) : (countdown n : List K).length = n := by
  induction n with
  | zero => rfl
  | succ n ih => rw [countdown, List.length_cons, ih]

theorem sum_countdown [CharZero K] (n : Nat) :
    (countdown n : List K).sum = (n : K) * (n + 1) / 2 := by
  induction n with
  | zero => simp [countdown]
  | succ n ih =>
      rw [countdown, List.sum_cons, ih]
      push_cast
      field_simp
      ring

/-! ### Shares that fade -/

/-- The shares of a number and of `i` numbers before it, if each newer number takes `share` of
what there is and leaves the rest to the older ones.  The oldest has all that is left. -/
def fading (share : K) : Nat → List K
  | 0 => [1]
  | i + 1 => share :: (fading share i).map ((1 - share) * ·)

@[simp] theorem length_fading (share : K) (i : Nat) : (fading share i).length = i + 1 := by
  induction i with
  | zero => rfl
  | succ i ih => rw [fading, List.length_cons, List.length_map, ih]

theorem sum_fading (share : K) (i : Nat) : (fading share i).sum = 1 := by
  induction i with
  | zero => simp [fading]
  | succ i ih =>
      rw [fading, List.sum_cons, List.sum_map_mul_left, List.map_id', ih, mul_one,
        add_sub_cancel]

variable [LinearOrder K] [IsStrictOrderedRing K]

/-! ### Shares of a whole -/

/-- No share is negative, and together they are one. -/
structure AreShares (shares : List K) : Prop where
  nonneg : ∀ s ∈ shares, 0 ≤ s
  total : shares.sum = 1

theorem areShares_replicate {n : Nat} (hn : 0 < n) :
    AreShares (List.replicate n (1 / (n : K))) := by
  have hcast : (n : K) ≠ 0 := (Nat.cast_pos.mpr hn).ne'
  constructor
  · intro s hs
    rw [List.eq_of_mem_replicate hs]
    positivity
  · rw [List.sum_replicate, nsmul_eq_mul, mul_one_div_cancel hcast]

theorem countdown_nonneg (n : Nat) : ∀ s ∈ (countdown n : List K), 0 ≤ s := by
  induction n with
  | zero => simp [countdown]
  | succ n ih =>
      rw [countdown, List.forall_mem_cons]
      exact ⟨Nat.cast_nonneg _, ih⟩

theorem areShares_countdown {n : Nat} (hn : 0 < n) :
    AreShares ((countdown n).map (1 / ((n : K) * (n + 1) / 2) * ·)) := by
  have hcast : (0 : K) < n := Nat.cast_pos.mpr hn
  have htotal : (n : K) * (n + 1) / 2 ≠ 0 := by positivity
  constructor
  · rw [List.forall_mem_map]
    intro s hs
    have hcount := countdown_nonneg n s hs
    positivity
  · rw [List.sum_map_mul_left, List.map_id', sum_countdown, one_div_mul_cancel htotal]

theorem areShares_fading {share : K} (hlow : 0 ≤ share) (hhigh : share ≤ 1) (i : Nat) :
    AreShares (fading share i) := by
  refine ⟨?_, sum_fading share i⟩
  induction i with
  | zero => simp [fading]
  | succ i ih =>
      rw [fading, List.forall_mem_cons, List.forall_mem_map]
      exact ⟨hlow, fun s hs => mul_nonneg (sub_nonneg.mpr hhigh) (ih s hs)⟩

/-! ### Order -/

/-- A mean grows with its numbers. -/
theorem mean_le_mean : ∀ {shares xs ys : List K}, (∀ s ∈ shares, 0 ≤ s) →
    List.Forall₂ (· ≤ ·) xs ys → mean shares xs ≤ mean shares ys := by
  intro shares
  induction shares with
  | nil => intro xs ys _ _; simp
  | cons s rest ih =>
      intro xs ys hshares hle
      obtain ⟨hs, hrest⟩ := List.forall_mem_cons.mp hshares
      cases hle with
      | nil => exact le_refl _
      | cons hxy hlater =>
          rw [mean_cons, mean_cons]
          exact add_le_add (mul_le_mul_of_nonneg_left hxy hs) (ih hrest hlater)

/-- No mean is below all of its numbers. -/
theorem AreShares.le_mean {shares xs : List K} (hshares : AreShares shares)
    (hlength : shares.length = xs.length) {low : K} (hlow : ∀ x ∈ xs, low ≤ x) :
    low ≤ mean shares xs := by
  have hle : List.Forall₂ (· ≤ ·) (xs.map fun _ => low) xs := by
    rw [List.forall₂_map_left_iff, List.forall₂_same]
    exact hlow
  calc low = low * shares.sum := by rw [hshares.total, mul_one]
    _ = mean shares (xs.map fun _ => low) := (mean_const low shares xs hlength).symm
    _ ≤ mean shares xs := mean_le_mean hshares.nonneg hle

/-- No mean is above all of its numbers. -/
theorem AreShares.mean_le {shares xs : List K} (hshares : AreShares shares)
    (hlength : shares.length = xs.length) {high : K} (hhigh : ∀ x ∈ xs, x ≤ high) :
    mean shares xs ≤ high := by
  have hle : List.Forall₂ (· ≤ ·) xs (xs.map fun _ => high) := by
    rw [List.forall₂_map_right_iff, List.forall₂_same]
    exact hhigh
  calc mean shares xs ≤ mean shares (xs.map fun _ => high) := mean_le_mean hshares.nonneg hle
    _ = high * shares.sum := mean_const high shares xs hlength
    _ = high := by rw [hshares.total, mul_one]

end ChartScript.Series
