/-
Exact numbers with an undefined value.

Floating-point arithmetic rounds, overflows and has two zeros.  What it says about being
undefined is simpler: an operation on an undefined value is undefined, a comparison with one
is false, and nothing else about rounding enters.  Here that part is kept and the rest left
out, over any ordered field.  A division by zero has no exact value; it is undefined too.
-/
import Mathlib
import ChartScript.Scalar

namespace ChartScript

/-- A number of `K`, or the undefined value. -/
inductive Exact (K : Type) where
  | undefined
  | value (x : K)
  deriving DecidableEq

namespace Exact

variable {K : Type}

/-- An operation on numbers, undefined where one of them is. -/
def strict (f : K → K → K) : Exact K → Exact K → Exact K
  | value x, value y => value (f x y)
  | _, _ => undefined

theorem strict_eq_undefined_iff {f : K → K → K} {a b : Exact K} :
    strict f a b = undefined ↔ a = undefined ∨ b = undefined := by
  cases a <;> cases b <;> simp [strict]

/-- A value that is not undefined is a number. -/
theorem ne_undefined_iff {a : Exact K} : a ≠ undefined ↔ ∃ x, a = value x := by
  cases a <;> simp

/-- Values none of which is undefined are numbers. -/
theorem exists_map_value {window : List (Exact K)} (hdefined : undefined ∉ window) :
    ∃ xs : List K, window = xs.map value := by
  induction window with
  | nil => exact ⟨[], rfl⟩
  | cons a rest ih =>
      obtain ⟨xs, rfl⟩ := ih fun hmem => hdefined (List.mem_cons_of_mem a hmem)
      obtain ⟨x, rfl⟩ := ne_undefined_iff.mp fun ha => hdefined (ha ▸ List.mem_cons_self)
      exact ⟨x :: xs, rfl⟩

/-- A fold is undefined when it starts so or meets an undefined value, if each step of it
is. -/
theorem foldl_eq_undefined_iff {f : Exact K → Exact K → Exact K}
    (hf : ∀ a b, f a b = undefined ↔ a = undefined ∨ b = undefined) (xs : List (Exact K))
    (a : Exact K) : xs.foldl f a = undefined ↔ a = undefined ∨ undefined ∈ xs := by
  induction xs generalizing a with
  | nil => simp
  | cons x rest ih => rw [List.foldl_cons, ih, hf, List.mem_cons, or_assoc, eq_comm (b := x)]

theorem foldl_eq_undefined {f : Exact K → Exact K → Exact K}
    (hf : ∀ a b, f a b = undefined ↔ a = undefined ∨ b = undefined) {a : Exact K}
    {rest : List (Exact K)} (hmem : undefined ∈ a :: rest) : rest.foldl f a = undefined :=
  (foldl_eq_undefined_iff hf rest a).mpr ((List.mem_cons.mp hmem).imp_left Eq.symm)

theorem setOf_value_mem_map (xs : List K) : {x | value x ∈ xs.map value} = {x | x ∈ xs} := by
  ext x
  simp

variable [Field K] [LinearOrder K]

instance : Scalar (Exact K) where
  add := strict (· + ·)
  sub := strict (· - ·)
  mul := strict (· * ·)
  div
    | value x, value y => if y = 0 then undefined else value (x / y)
    | _, _ => undefined
  neg
    | value x => value (-x)
    | undefined => undefined
  ofNat n := value n
  undefined := undefined
  isUndefined
    | value _ => false
    | undefined => true
  isZero
    | value x => x = 0
    | undefined => false
  lt
    | value x, value y => x < y
    | _, _ => false
  abs
    | value x => value |x|
    | undefined => undefined

/-! ### Operations on numbers -/

theorem ofNat_eq (n : Nat) : (Scalar.ofNat n : Exact K) = value (n : K) := rfl

@[simp] theorem value_add (x y : K) : value x + value y = value (x + y) := rfl

@[simp] theorem value_sub (x y : K) : value x - value y = value (x - y) := rfl

@[simp] theorem value_mul (x y : K) : value x * value y = value (x * y) := rfl

theorem value_div {x y : K} (hy : y ≠ 0) : value x / value y = value (x / y) := if_neg hy

@[simp] theorem abs_value (x : K) : Scalar.abs (value x) = value |x| := rfl

theorem lt_value_iff {x y : K} : Scalar.lt (value x) (value y) = true ↔ x < y :=
  decide_eq_true_iff

/-- Only a number is more than zero. -/
theorem zero_lt_iff {a : Exact K} :
    Scalar.lt (Scalar.ofNat 0) a = true ↔ ∃ x, a = value x ∧ 0 < x := by
  rw [ofNat_eq, Nat.cast_zero]
  cases a with
  | undefined => exact iff_of_false Bool.false_ne_true fun ⟨_, h, _⟩ => by cases h
  | value x => simp [lt_value_iff]

/-- Only a number is less than zero. -/
theorem lt_zero_iff {a : Exact K} :
    Scalar.lt a (Scalar.ofNat 0) = true ↔ ∃ x, a = value x ∧ x < 0 := by
  rw [ofNat_eq, Nat.cast_zero]
  cases a with
  | undefined => exact iff_of_false Bool.false_ne_true fun ⟨_, h, _⟩ => by cases h
  | value x => simp [lt_value_iff]

theorem isZero_value_iff {x : K} : Scalar.isZero (value x) = true ↔ x = 0 :=
  decide_eq_true_iff

@[simp] theorem larger_value (x y : K) :
    Scalar.larger (value x) (value y) = value (max x y) := by
  unfold Scalar.larger
  rw [if_neg (by exact Bool.false_ne_true)]
  by_cases hyx : y < x
  · rw [if_pos (lt_value_iff.mpr hyx), max_eq_left hyx.le]
  · rw [if_neg fun h => hyx (lt_value_iff.mp h), max_eq_right (not_lt.mp hyx)]

@[simp] theorem smaller_value (x y : K) :
    Scalar.smaller (value x) (value y) = value (min x y) := by
  unfold Scalar.smaller
  rw [if_neg (by exact Bool.false_ne_true)]
  by_cases hxy : x < y
  · rw [if_pos (lt_value_iff.mpr hxy), min_eq_left hxy.le]
  · rw [if_neg fun h => hxy (lt_value_iff.mp h), min_eq_right (not_lt.mp hxy)]

/-! ### Where an operation is undefined -/

@[simp] theorem add_eq_undefined_iff {a b : Exact K} :
    a + b = undefined ↔ a = undefined ∨ b = undefined :=
  strict_eq_undefined_iff

@[simp] theorem sub_eq_undefined_iff {a b : Exact K} :
    a - b = undefined ↔ a = undefined ∨ b = undefined :=
  strict_eq_undefined_iff

@[simp] theorem mul_eq_undefined_iff {a b : Exact K} :
    a * b = undefined ↔ a = undefined ∨ b = undefined :=
  strict_eq_undefined_iff

theorem div_value_eq_undefined_iff {a : Exact K} {y : K} (hy : y ≠ 0) :
    a / value y = undefined ↔ a = undefined := by
  cases a with
  | undefined => exact iff_of_true rfl rfl
  | value x => simp [value_div hy]

@[simp] theorem abs_eq_undefined_iff {a : Exact K} :
    Scalar.abs a = undefined ↔ a = undefined := by
  cases a with
  | undefined => exact iff_of_true rfl rfl
  | value x => simp

@[simp] theorem larger_eq_undefined_iff {a b : Exact K} :
    Scalar.larger a b = undefined ↔ a = undefined ∨ b = undefined := by
  cases a with
  | undefined => exact iff_of_true rfl (Or.inl rfl)
  | value x =>
      cases b with
      | undefined => exact iff_of_true rfl (Or.inr rfl)
      | value y => simp

@[simp] theorem smaller_eq_undefined_iff {a b : Exact K} :
    Scalar.smaller a b = undefined ↔ a = undefined ∨ b = undefined := by
  cases a with
  | undefined => exact iff_of_true rfl (Or.inl rfl)
  | value x =>
      cases b with
      | undefined => exact iff_of_true rfl (Or.inr rfl)
      | value y => simp

/-! ### Values that are not negative -/

/-- Not a negative number. -/
def NonNeg (a : Exact K) : Prop :=
  ∀ x, a = value x → 0 ≤ x

theorem nonNeg_value {x : K} (hx : 0 ≤ x) : NonNeg (value x) := by
  rintro _ ⟨⟩
  exact hx

theorem nonNeg_abs [IsStrictOrderedRing K] (a : Exact K) : NonNeg (Scalar.abs a) := by
  cases a with
  | undefined => rintro _ ⟨⟩
  | value x => exact nonNeg_value (abs_nonneg x)

theorem NonNeg.add [IsStrictOrderedRing K] {a b : Exact K} (ha : NonNeg a) (hb : NonNeg b) :
    NonNeg (a + b) := by
  cases a with
  | undefined => rintro _ ⟨⟩
  | value x =>
      cases b with
      | undefined => rintro _ ⟨⟩
      | value y => exact nonNeg_value (add_nonneg (ha x rfl) (hb y rfl))

theorem NonNeg.mul_value [IsStrictOrderedRing K] {a : Exact K} (ha : NonNeg a) {y : K}
    (hy : 0 ≤ y) : NonNeg (a * value y) := by
  cases a with
  | undefined => rintro _ ⟨⟩
  | value x => exact nonNeg_value (mul_nonneg (ha x rfl) hy)

theorem NonNeg.div_value [IsStrictOrderedRing K] {a : Exact K} (ha : NonNeg a) {y : K}
    (hy : 0 < y) : NonNeg (a / value y) := by
  cases a with
  | undefined => rintro _ ⟨⟩
  | value x =>
      rw [Exact.value_div hy.ne']
      exact nonNeg_value (div_nonneg (ha x rfl) hy.le)

/-! ### The extremes of a window -/

theorem largest_eq_undefined {window : List (Exact K)} (hmem : undefined ∈ window) :
    Scalar.largest window = undefined := by
  cases window with
  | nil => cases hmem
  | cons a rest => exact foldl_eq_undefined (fun _ _ => larger_eq_undefined_iff) hmem

theorem smallest_eq_undefined {window : List (Exact K)} (hmem : undefined ∈ window) :
    Scalar.smallest window = undefined := by
  cases window with
  | nil => cases hmem
  | cons a rest => exact foldl_eq_undefined (fun _ _ => smaller_eq_undefined_iff) hmem

/-- The largest of some numbers is the greatest of them. -/
theorem exists_isGreatest {window : List (Exact K)} (hsome : window ≠ [])
    (hdefined : undefined ∉ window) :
    ∃ highest, Scalar.largest window = value highest ∧
      IsGreatest {x | value x ∈ window} highest := by
  obtain ⟨xs, rfl⟩ := exists_map_value hdefined
  rw [setOf_value_mem_map]
  cases xs with
  | nil => exact absurd rfl hsome
  | cons x rest =>
      have hfold : Scalar.largest ((x :: rest).map value) = value (rest.foldl max x) := by
        rw [List.map_cons, Scalar.largest, List.foldl_map]
        exact List.foldl_hom value larger_value
      have hmax : (x :: rest).max? = some (rest.foldl max x) := List.max?_cons'
      exact ⟨rest.foldl max x, hfold, List.max?_eq_some_iff.mp hmax⟩

/-- The smallest of some numbers is the least of them. -/
theorem exists_isLeast {window : List (Exact K)} (hsome : window ≠ [])
    (hdefined : undefined ∉ window) :
    ∃ lowest, Scalar.smallest window = value lowest ∧
      IsLeast {x | value x ∈ window} lowest := by
  obtain ⟨xs, rfl⟩ := exists_map_value hdefined
  rw [setOf_value_mem_map]
  cases xs with
  | nil => exact absurd rfl hsome
  | cons x rest =>
      have hfold : Scalar.smallest ((x :: rest).map value) = value (rest.foldl min x) := by
        rw [List.map_cons, Scalar.smallest, List.foldl_map]
        exact List.foldl_hom value smaller_value
      have hmin : (x :: rest).min? = some (rest.foldl min x) := List.min?_cons'
      exact ⟨rest.foldl min x, hfold, List.min?_eq_some_iff.mp hmin⟩

end Exact

end ChartScript
