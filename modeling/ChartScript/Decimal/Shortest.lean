/-
The shortest decimal text of a floating-point number.

Of the numerals that read back as the number, those with the fewest digits are
taken, and of these the one nearest to the exact value.  The search needs no
estimate: for each count of digits, the only candidates are the two neighbours of
the exact value on the grid of numerals with that many digits, and reading a
candidate back tells whether it will do.  Two candidates at the same distance are
told apart by a rule that the caller chooses.

A finite number is exactly its significand times a power of two, so everything here
is arithmetic on natural numbers.
-/
import ChartScript.Decimal.Basic

namespace ChartScript

open Text

/-- Which of two equally near neighbours is taken. -/
inductive Tie where
  /-- The greater one. -/
  | up
  /-- The one with an even last digit. -/
  | even
deriving DecidableEq, Repr

namespace Decimal

/-- The absolute value of a finite number as a fraction. -/
def fraction (x : Float) : Nat × Nat :=
  let bits := x.toBits.toNat
  let biased := bits / Nat.pow 2 52 % Nat.pow 2 11
  let stored := bits % Nat.pow 2 52
  let significand := if biased = 0 then stored else Nat.pow 2 52 + stored
  let exponent := if biased = 0 then 1 else biased
  if 1075 ≤ exponent then (significand * Nat.pow 2 (exponent - 1075), 1)
  else (significand, Nat.pow 2 (1075 - exponent))

/-- The power of ten below a positive fraction: the place of its first digit. -/
def leadingPlace (num den : Nat) : Int :=
  let guess : Int := (digits num).length - (digits den).length
  let reaches := if 0 ≤ guess then den * Nat.pow 10 guess.toNat ≤ num
    else den ≤ num * Nat.pow 10 (-guess).toNat
  if reaches then guess else guess - 1

/-- A numeral without zeros at the end of its coefficient, which `steps` bounds. -/
def strip (steps : Nat) (d : Decimal) : Decimal :=
  match steps with
  | 0 => d
  | steps + 1 =>
      if d.coefficient % 10 = 0 && d.coefficient != 0 then
        strip steps ⟨d.coefficient / 10, d.exponent + 1⟩
      else d

/-- The numeral with `count` digits nearest to the absolute value of `x`, among
those that read back as that value, if there is one. -/
def withDigits? (tie : Tie) (x : Float) (count : Nat) : Option Decimal :=
  let (num, den) := fraction x
  let unit := leadingPlace num den - count + 1
  let scaled := if 0 ≤ unit then num else num * Nat.pow 10 (-unit).toNat
  let step := if 0 ≤ unit then den * Nat.pow 10 unit.toNat else den
  let low : Decimal := ⟨scaled / step, unit⟩
  let high : Decimal := ⟨scaled / step + 1, unit⟩
  let readsBack (d : Decimal) : Bool := d.toFloat == Float.abs x
  let twice := 2 * (scaled % step)
  let preferLow :=
    if twice = step then
      match tie with
      | .up => false
      | .even => low.coefficient % 2 == 0
    else decide (twice < step)
  match readsBack low, readsBack high with
  | true, true => some (if preferLow then low else high)
  | true, false => some low
  | false, true => some high
  | false, false => none

/-- The shortest numeral of the absolute value of a finite number that is not zero.
Seventeen digits always do; the exact value stands behind them. -/
def shortest (tie : Tie) (x : Float) : Decimal :=
  match (List.range 17).findSome? fun n => withDigits? tie x (n + 1) with
  | some d => strip (digits d.coefficient).length d
  | none =>
      let (num, den) := fraction x
      ⟨num * Nat.pow 5 den.log2, -Int.ofNat den.log2⟩

end Decimal

end ChartScript
