/-
The arithmetic that indicators are computed in.

An indicator needs the four operations, whole numbers, an absolute value, a
comparison, and a value that stands for "undefined at this index".  Written over any
type that has these, the same definition runs on floating-point numbers and can be
reasoned about over exact ones.  Nothing is assumed here of how the operations
behave; what a statement needs of them it asks for itself.
-/

namespace ChartScript

/-- A type of numbers with an undefined value. -/
class Scalar (α : Type) extends Add α, Sub α, Mul α, Div α, Neg α where
  /-- A whole number. -/
  ofNat : Nat → α
  /-- The undefined value. -/
  undefined : α
  /-- Whether a value is the undefined one. -/
  isUndefined : α → Bool
  /-- Whether a value equals zero. -/
  isZero : α → Bool
  /-- Whether a value is less than another; false when either is undefined. -/
  lt : α → α → Bool
  /-- The absolute value. -/
  abs : α → α

namespace Scalar

variable {α : Type} [Scalar α]

/-- The larger of two values, the second one when they are equal, and undefined when
either is.  Equal values can differ in the sign of a zero. -/
def larger (a b : α) : α :=
  if isUndefined a || isUndefined b then undefined
  else if lt b a then a
  else b

/-- The smaller of two values, the second one when they are equal, and undefined when
either is. -/
def smaller (a b : α) : α :=
  if isUndefined a || isUndefined b then undefined
  else if lt a b then a
  else b

/-- The largest of some values, the last one of those that are equal to it. -/
def largest : List α → α
  | [] => undefined
  | x :: xs => xs.foldl larger x

/-- The smallest of some values, the last one of those that are equal to it. -/
def smallest : List α → α
  | [] => undefined
  | x :: xs => xs.foldl smaller x

end Scalar

/-- Floating-point numbers are undefined when they are not a number. -/
instance : Scalar Float where
  ofNat := Float.ofNat
  undefined := Float.ofBits 0x7FF8000000000000
  isUndefined := Float.isNaN
  isZero x := x == Float.ofNat 0
  lt := Float.lt
  abs := Float.abs

end ChartScript
