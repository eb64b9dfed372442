/-
Reading the numbers of a JSON document.

A number is read in the arithmetic of its target, not exactly: the first digits, as
many as fit into sixty-four bits, make a whole number, and a power of ten scales it in
one floating-point step.  The result can differ from the nearest number in its last
bit.  A number too large to be finite is refused; one too small is zero.

A whole number that fits is converted in one step, and only such a numeral can be read
as an integer.
-/
import ChartScript.Json.Value
import ChartScript.Decimal.Basic

namespace ChartScript.Numeral

open Text

/-- The first digits of a number, and how many steps its point has moved. -/
structure Significand where
  value : Nat
  exponent : Int
  /-- Whether a digit has not fitted. -/
  isFull : Bool
deriving DecidableEq, Repr

/-- Sixty-four bits hold the numbers below this one. -/
def significandLimit : Nat := 0x10000000000000000

namespace Significand

/-- Take a digit in front of the point.  One that does not fit, and all behind it, count
as zeros. -/
def takeWhole (s : Significand) (c : Char) : Significand :=
  let value := s.value * 10 + (c.toNat - 48)
  if s.isFull || decide (significandLimit ≤ value) then
    { s with exponent := s.exponent + 1, isFull := true }
  else { s with value }

/-- Take a digit behind the point.  One that does not fit, and all behind it, are left
out. -/
def takeFraction (s : Significand) (c : Char) : Significand :=
  let value := s.value * 10 + (c.toNat - 48)
  if s.isFull || decide (significandLimit ≤ value) then { s with isFull := true }
  else { s with value, exponent := s.exponent - 1 }

end Significand

/-- The first digits of a numeral, its exponent not counted.  Digits behind the point
are tried anew after digits in front of it have not fitted. -/
def significand (n : Numeral) : Significand :=
  let whole := n.whole.foldl Significand.takeWhole ⟨0, 0, false⟩
  n.fraction.foldl Significand.takeFraction { whole with isFull := false }

/-- The largest power of ten that scales in one step. -/
def powerLimit : Nat := 308

/-- Ten to the power of `k`, for `k` up to the limit. -/
def powerOfTen (k : Nat) : Float :=
  (Decimal.mk 1 k).toFloat

/-- Divide by ten to the power of `k`, by the largest power that there is as long as
`k` is larger. -/
def scaleDown (x : Float) (k : Nat) : Float :=
  if powerLimit < k then
    if x == Float.ofNat 0 then x else scaleDown (x / powerOfTen powerLimit) (k - powerLimit)
  else x / powerOfTen k
termination_by k
decreasing_by simp only [powerLimit] at *; omega

/-- Multiply by ten to the power of `k`, if the product is finite. -/
def scaleUp? (x : Float) (k : Nat) : Option Float :=
  if powerLimit < k then (if x == Float.ofNat 0 then some x else none)
  else
    let scaled := x * powerOfTen k
    if scaled.isInf then none else some scaled

/-- The value of some first digits, scaled. -/
def scale? (value : Nat) (exponent : Int) : Option Float :=
  if 0 ≤ exponent then scaleUp? (Float.ofNat value) exponent.toNat
  else some (scaleDown (Float.ofNat value) (-exponent).toNat)

/-- The largest exponent that is added to the others. -/
def exponentLimit : Int := 0x7FFFFFFF

/-- The absolute value of a numeral, if it is finite. -/
def absolute? (n : Numeral) : Option Float :=
  let s := n.significand
  match n.exponent with
  | none => scale? s.value s.exponent
  | some exponent =>
      if exponentLimit < exponent.natAbs then
        if 0 < exponent ∧ s.value ≠ 0 then none else some (Float.ofNat 0)
      else scale? s.value (s.exponent + exponent)

/-- The floating-point number that a numeral is read as, if it is finite. -/
def toFloat? (n : Numeral) : Option Float :=
  n.absolute?.map fun x => if n.negative then -x else x

/-- The integer that a numeral is read as: it must be whole, fit into sixty-four bits
with a sign, and not be zero behind a minus sign. -/
def toInt64? (n : Numeral) : Option Int64 :=
  if !n.isWhole then none
  else
    let size : Int := ofDigits n.whole
    let value := if n.negative then -size else size
    if n.negative && size == 0 then none
    else int64? value

end ChartScript.Numeral
