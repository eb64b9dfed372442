/-
Numerals as they are written: digits, digits behind a point, and an exponent.
-/
import ChartScript.Text.Digits

namespace ChartScript

open Text

/-- A written number.  There is a point exactly if there are digits behind it. -/
structure Numeral where
  negative : Bool
  whole : List Char
  fraction : List Char
  exponent : Option Int
deriving DecidableEq, Repr

namespace Numeral

/-- The numeral of an integer. -/
def ofInt (i : Int) : Numeral :=
  ⟨decide (i < 0), digits i.natAbs, [], none⟩

/-- An exponent behind its letter and sign. -/
def exponentText : Option Int → List Char
  | none => []
  | some exponent => 'e' :: (if 0 ≤ exponent then ['+'] else []) ++ signedDigits exponent

/-- The text of a numeral. -/
def text (n : Numeral) : List Char :=
  (if n.negative then ['-'] else []) ++ n.whole ++
    (if n.fraction.isEmpty then [] else '.' :: n.fraction) ++ exponentText n.exponent

/-- Whether a numeral has neither a point nor an exponent. -/
def isWhole (n : Numeral) : Bool :=
  n.fraction.isEmpty && n.exponent.isNone

end Numeral

end ChartScript
