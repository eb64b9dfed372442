/-
How a number is laid out as text.

Two layouts are in use.  Messages and listings write every digit of a number in its
place and never an exponent, so `1e21` has twenty-two digits and `2.0` is `2`.
Result documents keep at least one digit behind the point, and change to scientific
notation for the very large and the very small.
-/
import ChartScript.Decimal.Numeral
import ChartScript.Decimal.Shortest

namespace ChartScript

open Text

/-- The choices that a way to write numbers makes. -/
structure Layout where
  /-- Which magnitudes are written with every digit in its place. -/
  isPositional : Int → Bool
  /-- Whether a whole number in positional form has `.0` behind it. -/
  keepsPoint : Bool
  /-- Which of two equally near shortest numerals is written. -/
  tie : Tie

namespace Layout

/-- The layout of messages and listings. -/
def plain : Layout where
  isPositional := fun _ => true
  keepsPoint := false
  tie := .up

/-- The layout of result documents. -/
def document : Layout where
  isPositional := fun magnitude => decide (-5 ≤ magnitude) && decide (magnitude ≤ 15)
  keepsPoint := true
  tie := .even

/-- Every digit in its place. -/
def positional (layout : Layout) (negative : Bool) (d : Decimal) : Numeral :=
  let ds := digits d.coefficient
  if 0 ≤ d.exponent then
    ⟨negative, ds ++ List.replicate d.exponent.toNat '0',
      if layout.keepsPoint then ['0'] else [], none⟩
  else
    let places := (-d.exponent).toNat
    if places < ds.length then
      ⟨negative, ds.take (ds.length - places), ds.drop (ds.length - places), none⟩
    else ⟨negative, ['0'], List.replicate (places - ds.length) '0' ++ ds, none⟩

/-- One digit, the others behind a point, and an exponent. -/
def scientific (negative : Bool) (d : Decimal) : Numeral :=
  let ds := digits d.coefficient
  ⟨negative, ds.take 1, ds.drop 1, some d.magnitude⟩

/-- The numeral of a finite number. -/
def numeral (layout : Layout) (x : Float) : Numeral :=
  let negative := decide (0x8000000000000000 ≤ x.toBits.toNat)
  if x == Float.ofNat 0 then layout.positional negative ⟨0, 0⟩
  else
    let d := Decimal.shortest layout.tie x
    if layout.isPositional d.magnitude then layout.positional negative d
    else scientific negative d

end Layout

/-- A number as messages and listings show it. -/
def plainText (x : Float) : String :=
  if x.isNaN then "NaN"
  else if x.isInf then (if x < Float.ofNat 0 then "-inf" else "inf")
  else String.ofList (Layout.plain.numeral x).text

end ChartScript
