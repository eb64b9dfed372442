/-
Decimal numerals and the floating-point numbers they stand for.

A numeral is a whole coefficient times a power of ten.  Its text has digits with at
most one point among them, at least one digit on either side of the point together,
and then perhaps an exponent.  The value is the number nearest to the exact one,
however many digits there are; a numeral too large for that is infinity, one too
small is zero.
-/
import ChartScript.Text.Digits

namespace ChartScript

open Text

/-- `coefficient` times ten to the power of `exponent`. -/
structure Decimal where
  coefficient : Nat
  exponent : Int
deriving DecidableEq, Repr

namespace Decimal

/-- The exponent that scientific notation gives: the place of the first digit,
counted from the units.  The coefficient must not be zero. -/
def magnitude (d : Decimal) : Int :=
  (digits d.coefficient).length - 1 + d.exponent

/-- Beyond this magnitude every numeral is infinity, and below its negative zero. -/
def magnitudeLimit : Int := 330

/-- The floating-point number nearest to a numeral.  A numeral beyond the limit is
settled without computing the power of ten. -/
def toFloat (d : Decimal) : Float :=
  if d.coefficient = 0 then Float.ofNat 0
  else if magnitudeLimit < d.magnitude then Float.ofBits 0x7FF0000000000000
  else if d.magnitude < -magnitudeLimit then Float.ofNat 0
  else Float.ofScientific d.coefficient (d.exponent < 0) d.exponent.natAbs

/-- The exponent behind a coefficient: none at all, or a letter and an integer. -/
def readExponent? : List Char → Option Int
  | [] => some 0
  | c :: cs => if c == 'e' || c == 'E' then readInt? cs else none

/-- Read an unsigned numeral that is all of `cs`. -/
def read? (cs : List Char) : Option Decimal :=
  let whole := cs.takeWhile Char.isDigit
  let (fraction, rest) : List Char × List Char :=
    match cs.dropWhile Char.isDigit with
    | '.' :: after => (after.takeWhile Char.isDigit, after.dropWhile Char.isDigit)
    | rest => ([], rest)
  if whole.isEmpty && fraction.isEmpty then none
  else
    (readExponent? rest).map fun exponent =>
      ⟨ofDigits (whole ++ fraction), exponent - fraction.length⟩

/-- Whether a text is a given word, in capitals or not.  The word is in small
letters. -/
def isWord (word : String) (cs : List Char) : Bool :=
  cs.map Char.toLower == word.toList

/-- Read an unsigned number: a numeral, or a word for infinity or for no number. -/
def readUnsigned? (cs : List Char) : Option Float :=
  if isWord "inf" cs || isWord "infinity" cs then some (Float.ofBits 0x7FF0000000000000)
  else if isWord "nan" cs then some (Float.ofBits 0x7FF8000000000000)
  else (read? cs).map toFloat

/-- Read a number, with or without a sign, that is all of `cs`. -/
def readFloat? : List Char → Option Float
  | '+' :: cs => readUnsigned? cs
  | '-' :: cs => (readUnsigned? cs).map fun x => -x
  | cs => readUnsigned? cs

end Decimal

end ChartScript
