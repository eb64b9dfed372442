/-
Dates of the proleptic Gregorian calendar.

A date is written as a year, a month and a day with a hyphen directly behind each of the
first two.  Blanks may stand in front of each number.  A year without a sign has at most
four digits; one with a sign has any number of them, and lies within a quarter of a
million years of the present.
-/
import ChartScript.Text.Blank
import ChartScript.Text.Digits

namespace ChartScript.Calendar

open Text

/-- Whether a year has a twenty-ninth of February. -/
def isLeap (year : Int) : Bool :=
  year % 4 == 0 && (year % 100 != 0 || year % 400 == 0)

/-- The lengths of the months of a year. -/
def monthLengths (year : Int) : List Nat :=
  [31, if isLeap year then 29 else 28, 31, 30, 31, 30, 31, 31, 30, 31, 30, 31]

/-- The number of days from the first day of year one to the first day of a year. -/
def daysBefore (year : Int) : Int :=
  let past := year - 1
  365 * past + past / 4 - past / 100 + past / 400

/-- The earliest and the latest year there is. -/
def firstYear : Int := -262143

/-- The latest year there is. -/
def lastYear : Int := 262142

/-- The number of days from the first of January 1970 to a date, if there is such a
date. -/
def dayNumber? (year : Int) (month day : Nat) : Option Int :=
  match month with
  | 0 => none
  | before + 1 =>
      match (monthLengths year)[before]? with
      | none => none
      | some length =>
          if firstYear ≤ year ∧ year ≤ lastYear ∧ 1 ≤ day ∧ day ≤ length then
            let months := ((monthLengths year).take before).foldl Nat.add 0
            some (daysBefore year - daysBefore 1970 + Int.ofNat (months + (day - 1)))
          else none

/-- The number of seconds in a day. -/
def secondsPerDay : Int := 86400

/-- A number of at most `width` digits at the front of a text, and what follows. -/
def number? (width : Nat) (cs : List Char) : Option (Nat × List Char) :=
  let run := (cs.take width).takeWhile Char.isDigit
  if run.isEmpty then none else some (ofDigits run, cs.drop run.length)

/-- A year at the front of a text, and what follows. -/
def year? : List Char → Option (Int × List Char)
  | '-' :: cs => (number? cs.length cs).map fun (n, rest) => (-Int.ofNat n, rest)
  | '+' :: cs => (number? cs.length cs).map fun (n, rest) => (Int.ofNat n, rest)
  | cs => (number? 4 cs).map fun (n, rest) => (Int.ofNat n, rest)

/-- What follows a hyphen. -/
def afterHyphen? : List Char → Option (List Char)
  | '-' :: cs => some cs
  | _ => none

/-- The seconds from 1970 to the start of the day that a text is the date of. -/
def readDate? (cs : List Char) : Option Int := do
  let (year, cs) ← year? (trimStart cs)
  let cs ← afterHyphen? cs
  let (month, cs) ← number? 2 (trimStart cs)
  let cs ← afterHyphen? cs
  let (day, cs) ← number? 2 (trimStart cs)
  if cs.isEmpty then (dayNumber? year month day).map (· * secondsPerDay) else none

end ChartScript.Calendar
