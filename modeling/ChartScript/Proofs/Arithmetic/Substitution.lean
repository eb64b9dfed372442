/-
Naming a part of an expression.

At a bar where an expression fails, its series is undefined.  A name bound to that series is
an undefined operand where the expression, written in its place, would fail; and neither way
does the whole have a value there, since no operation on an undefined operand is defined.
With failures settled as undefined, evaluation is compositional: `valueAt_neg` and
`valueAt_binary` give the value of an expression from the values of its parts.  So a name can
be replaced by the expression that it stands for.

Of floating-point numbers this needs only that an undefined operand makes the result of every
operation undefined, and that the undefined number is neither infinite nor equal to zero.
-/
import ChartScript.Arithmetic.Basic
import ChartScript.Proofs.Checks

namespace ChartScript

/-! ### Undefined operands -/

theorem neg_undefined : -(Scalar.undefined : Float) = Scalar.undefined := rfl

theorem isInf_undefined : (Scalar.undefined : Float).isInf = false := by decide

theorem undefined_ne_zero : ((Scalar.undefined : Float) == Float.ofNat 0) = false := by decide

theorem undefined_left (b : Float) :
    Scalar.undefined + b = Scalar.undefined ∧ Scalar.undefined - b = Scalar.undefined ∧
      Scalar.undefined * b = Scalar.undefined ∧ Scalar.undefined / b = Scalar.undefined :=
  ⟨rfl, rfl, rfl, rfl⟩

theorem undefined_right (a : Float) :
    a + Scalar.undefined = Scalar.undefined ∧ a - Scalar.undefined = Scalar.undefined ∧
      a * Scalar.undefined = Scalar.undefined ∧ a / Scalar.undefined = Scalar.undefined := by
  -- Every operation looks at the left operand first, whatever kind of number it is.
  refine ⟨?_, ?_, ?_, ?_⟩
  · show Float.ofModel (.pack (.add _ a.toModel.unpack .notANumber)) = _
    cases a.toModel.unpack <;> rfl
  · show Float.ofModel (.pack (.sub _ a.toModel.unpack .notANumber)) = _
    cases a.toModel.unpack <;> rfl
  · show Float.ofModel (.pack (.mul _ a.toModel.unpack .notANumber)) = _
    cases a.toModel.unpack <;> rfl
  · show Float.ofModel (.pack (.div _ a.toModel.unpack .notANumber)) = _
    cases a.toModel.unpack <;> rfl

namespace Arithmetic

/-! ### Values from values -/

/-- The value of an attempt, undefined if it fails. -/
def settled : Except EvalError Float → Float
  | .ok value => value
  | .error _ => Scalar.undefined

/-- The value of an operation on two values. -/
def combined (operation : Operation) (l r : Float) : Float :=
  settled (operation.apply l r >>= finite)

/-- An undefined left operand leaves nothing to fail but a division by zero. -/
theorem apply_undefined_left (operation : Operation) (r : Float) :
    operation.apply Scalar.undefined r = .ok Scalar.undefined ∨
      operation.apply Scalar.undefined r = .error .divisionByZero := by
  obtain ⟨hadd, hsub, hmul, hdiv⟩ := undefined_left r
  cases operation with
  | add => exact Or.inl (congrArg Except.ok hadd)
  | sub => exact Or.inl (congrArg Except.ok hsub)
  | mul => exact Or.inl (congrArg Except.ok hmul)
  | div =>
      by_cases hzero : (r == Float.ofNat 0) = true
      · exact Or.inr (if_pos hzero)
      · exact Or.inl ((if_neg hzero).trans (congrArg Except.ok hdiv))

/-- An undefined divisor is not zero. -/
theorem apply_undefined_right (operation : Operation) (l : Float) :
    operation.apply l Scalar.undefined = .ok Scalar.undefined := by
  obtain ⟨hadd, hsub, hmul, hdiv⟩ := undefined_right l
  cases operation with
  | add => exact congrArg Except.ok hadd
  | sub => exact congrArg Except.ok hsub
  | mul => exact congrArg Except.ok hmul
  | div =>
      unfold Operation.apply
      rw [undefined_ne_zero, hdiv]
      rfl

theorem settled_finite_undefined : settled (finite Scalar.undefined) = Scalar.undefined := by
  rw [finite, isInf_undefined]
  rfl

theorem combined_undefined_left (operation : Operation) (r : Float) :
    combined operation Scalar.undefined r = Scalar.undefined := by
  unfold combined
  rcases apply_undefined_left operation r with hvalue | herror
  · rw [hvalue]
    exact settled_finite_undefined
  · rw [herror]
    rfl

theorem combined_undefined_right (operation : Operation) (l : Float) :
    combined operation l Scalar.undefined = Scalar.undefined := by
  rw [combined, apply_undefined_right]
  exact settled_finite_undefined

variable {table : SymbolTable} {index : Nat}

theorem valueAt_eq (table : SymbolTable) (e : Arithmetic) (index : Nat) :
    e.valueAt table index = settled (e.evalAt table index) := by
  unfold valueAt
  cases e.evalAt table index <;> rfl

theorem valueAt_neg (operand : Arithmetic) :
    (neg operand).valueAt table index = settled (finite (-operand.valueAt table index)) := by
  rw [valueAt_eq, valueAt_eq, evalAt]
  cases operand.evalAt table index with
  | ok value => rfl
  | error e =>
      show Scalar.undefined = settled (finite (-Scalar.undefined))
      rw [neg_undefined, settled_finite_undefined]

/-- **The value of an expression is that of its operation on the values of its parts**, also
at a bar where a part fails. -/
theorem valueAt_binary (operation : Operation) (left right : Arithmetic) :
    (binary operation left right).valueAt table index =
      combined operation (left.valueAt table index) (right.valueAt table index) := by
  rw [valueAt_eq, valueAt_eq, valueAt_eq, evalAt]
  cases left.evalAt table index with
  | error e => exact (combined_undefined_left operation _).symm
  | ok l =>
      cases right.evalAt table index with
      | error e => exact (combined_undefined_right operation l).symm
      | ok r => rfl

theorem isInf_of_finite {x value : Float} (h : finite x = .ok value) : value.isInf = false := by
  unfold finite at h
  by_cases hinf : x.isInf = true
  · simp [hinf] at h
  · simp only [hinf] at h
    cases h
    simpa using hinf

/-- No expression has an infinite value. -/
theorem isInf_of_evalAt {e : Arithmetic} {value : Float} (h : e.evalAt table index = .ok value) :
    value.isInf = false := by
  cases e with
  | number x => exact isInf_of_finite h
  | symbol name =>
      rw [evalAt] at h
      split at h
      · exact isInf_of_finite h
      · cases h
  | neg operand =>
      obtain ⟨x, -, hx⟩ := bind_eq_ok_iff.mp h
      exact isInf_of_finite hx
  | binary operation left right =>
      obtain ⟨l, -, hleft⟩ := bind_eq_ok_iff.mp h
      obtain ⟨r, -, hright⟩ := bind_eq_ok_iff.mp hleft
      obtain ⟨x, -, hx⟩ := bind_eq_ok_iff.mp hright
      exact isInf_of_finite hx

/-- Reading a value as an operand changes nothing about it. -/
theorem settled_finite_valueAt (e : Arithmetic) :
    settled (finite (e.valueAt table index)) = e.valueAt table index := by
  rw [valueAt_eq]
  cases h : e.evalAt table index with
  | error error => exact settled_finite_undefined
  | ok value =>
      simp only [settled, finite, isInf_of_evalAt h]
      rfl

/-! ### Replacing a name -/

/-- An expression with another one in place of a name. -/
def replace (e : Arithmetic) (name : String) (inner : Arithmetic) : Arithmetic :=
  match e with
  | .number value => .number value
  | .symbol other => if other = name then inner else .symbol other
  | .neg operand => .neg (operand.replace name inner)
  | .binary operation left right =>
      .binary operation (left.replace name inner) (right.replace name inner)

/-- A name bound to the series of an expression is an operand with the value of the
expression. -/
theorem valueAt_symbol_of_insert (hindex : index < table.barCount) (name : String)
    (inner : Arithmetic) :
    (symbol name).valueAt (table.insert name (inner.evaluate table)) index =
      inner.valueAt table index := by
  have hvalue : (inner.evaluate table)[index]? = some (inner.valueAt table index) := by
    simp [evaluate, hindex]
  rw [valueAt_eq, evalAt, SymbolTable.get?_insert_self, Option.bind_some, hvalue]
  exact settled_finite_valueAt inner

theorem valueAt_symbol_of_insert_ne {name other : String} (hne : other ≠ name) (series : Series) :
    (symbol other).valueAt (table.insert name series) index =
      (symbol other).valueAt table index := by
  simp only [valueAt, evalAt, SymbolTable.get?_insert, if_neg hne.symm]

/-- **A name stands for the expression whose series it is bound to.** -/
theorem valueAt_replace (hindex : index < table.barCount) (name : String)
    (inner outer : Arithmetic) :
    outer.valueAt (table.insert name (inner.evaluate table)) index =
      (outer.replace name inner).valueAt table index := by
  induction outer with
  | number value => rfl
  | symbol other =>
      rw [replace]
      by_cases hname : other = name
      · rw [if_pos hname, hname]
        exact valueAt_symbol_of_insert hindex name inner
      · rw [if_neg hname]
        exact valueAt_symbol_of_insert_ne hname _
  | neg operand ih => rw [replace, valueAt_neg, valueAt_neg, ih]
  | binary operation left right ihl ihr =>
      rw [replace, valueAt_binary, valueAt_binary, ihl, ihr]

theorem evaluate_replace (table : SymbolTable) (name : String) (inner outer : Arithmetic) :
    outer.evaluate (table.insert name (inner.evaluate table)) =
      (outer.replace name inner).evaluate table := by
  unfold evaluate
  rw [SymbolTable.barCount_insert]
  refine List.map_congr_left fun index hmem => ?_
  exact valueAt_replace (List.mem_range.mp hmem) name inner outer

end Arithmetic

end ChartScript
