/-
Whole numbers written in decimal digits.

A natural number is read from one or more digits and nothing else; leading zeros are
allowed.  An integer may have one sign in front.  Writing uses the fewest digits.
-/

namespace ChartScript.Text

/-- The decimal digits of a natural number. -/
def digits (n : Nat) : List Char :=
  Nat.toDigits 10 n

/-- The natural number that a run of digits stands for. -/
def ofDigits (cs : List Char) : Nat :=
  Nat.ofDigitChars 10 cs 0

/-- Read a natural number that is all of `cs`. -/
def readNat? (cs : List Char) : Option Nat :=
  if cs.isEmpty || !cs.all Char.isDigit then none else some (ofDigits cs)

/-- Read an integer, with or without a sign, that is all of `cs`. -/
def readInt? : List Char → Option Int
  | '+' :: cs => (readNat? cs).map Int.ofNat
  | '-' :: cs => (readNat? cs).map fun n => -Int.ofNat n
  | cs => (readNat? cs).map Int.ofNat

/-- The decimal digits of an integer, behind a minus sign if it is negative. -/
def signedDigits (i : Int) : List Char :=
  if i < 0 then '-' :: digits i.natAbs else digits i.natAbs

/-- An integer in sixty-four bits with a sign, if it fits. -/
def int64? (i : Int) : Option Int64 :=
  if Int64.minValue.toInt ≤ i ∧ i ≤ Int64.maxValue.toInt then some (Int64.ofInt i) else none

/-- A natural number reads back from its digits. -/
theorem readNat?_digits (n : Nat) : readNat? (digits n) = some n := by
  have hall : (Nat.toDigits 10 n).all Char.isDigit = true :=
    List.all_eq_true.mpr fun _ hc => Nat.isDigit_of_mem_toDigits (by decide) (by decide) hc
  simp [readNat?, digits, ofDigits, hall, Nat.toDigits_ne_nil, Nat.ofDigitChars_ten_toDigits]

end ChartScript.Text
