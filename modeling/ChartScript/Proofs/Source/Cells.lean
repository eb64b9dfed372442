/-
Comma-separated rows are read all together or not at all.

The cells of a record say a time and up to five prices.  A price cell that is blank or missing says
that there is none; any other cell that says nothing is at fault.  `Faults` tells what is at fault
at each place of a record: place zero is the record as a whole, which must have as many fields as
the header, and place `n + 1` is its column `n`.

A record is read by one check for each place, so it fails with the fault at the first place that has
one.  Records are read one after another, and a fault anywhere leaves no row of any of them.
-/
import ChartScript.Proofs.Checks
import ChartScript.Proofs.Decimal.NumberText
import ChartScript.Source.Basic

namespace ChartScript

open Text

/-! ### Whole numbers -/

/-- Digits, perhaps behind a sign, that stand for a whole number. -/
inductive IsInteger : List Char → Int → Prop where
  | unsigned {digits : List Char} (nonempty : digits ≠ [])
      (all : ∀ c ∈ digits, c.isDigit = true) : IsInteger digits (ofDigits digits)
  | plus {digits : List Char} (nonempty : digits ≠ [])
      (all : ∀ c ∈ digits, c.isDigit = true) : IsInteger ('+' :: digits) (ofDigits digits)
  | minus {digits : List Char} (nonempty : digits ≠ [])
      (all : ∀ c ∈ digits, c.isDigit = true) : IsInteger ('-' :: digits) (-ofDigits digits)

namespace Source

/-- What a time cell says: a number of seconds, or else the first second of a date. -/
inductive SaysTime (cell : List Char) : Int64 → Prop where
  | seconds {time : Int64} (whole : IsInteger (trim cell) time.toInt) : SaysTime cell time
  | date {seconds : Int} (other : ∀ time : Int64, ¬IsInteger (trim cell) time.toInt)
      (reads : Calendar.readDate? (trim cell) = some seconds) :
      SaysTime cell (Int64.ofInt seconds)

/-- The prices of a record, in the order of their columns behind the time. -/
def priceNames : List String := ["open", "high", "low", "close", "volume"]

variable (width number : Nat) (record : Csv.Record)

/-- What is at fault at a place of a record, which is the row of the given number. -/
inductive Faults : Nat → CsvFault → Prop where
  | width (other : record.fields.length ≠ width) :
      Faults 0 (.width record.start record.fields.length width)
  | missingTime (missing : record.fields[0]? = none) : Faults 1 (.missingTime number)
  | time {cell : List Char} (here : record.fields[0]? = some cell)
      (silent : ∀ time, ¬SaysTime cell time) :
      Faults 1 (.invalidTime number (String.ofList cell))
  | price {column : Nat} {name : String} {cell : List Char}
      (named : priceNames[column]? = some name) (here : record.fields[column + 1]? = some cell)
      (filled : trim cell ≠ []) (reads : Decimal.readFloat? (trim cell) = none) :
      Faults (column + 2) (.invalidPrice number name (String.ofList (trim cell)))

variable {width number : Nat} {record : Csv.Record}

/-- What is at fault in the first record that has a fault, at its first place that has one.  The
first record is row two. -/
def FirstFault (width : Nat) (records : List Csv.Record) (fault : CsvFault) : Prop :=
  ∃ before record after, records = before ++ record :: after ∧
    (∀ earlier ∈ before, ∀ number place other, ¬Faults width number earlier place other) ∧
    IsFirst (Faults width (before.length + 2) record) fault

variable {records : List Csv.Record}

section Fetch

variable {files : FileSystem Id} {directory symbol text : String}

end Fetch

end Source

end ChartScript
