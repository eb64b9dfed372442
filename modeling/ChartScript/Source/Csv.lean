/-
Provider rows in comma-separated text.

The first record is a header and means nothing but how many fields there are.  Every
other record has a time, which is a number of seconds or a date, and up to five prices,
any of which may be blank.  The first faulty cell or record is the one reported; rows
are counted with the header, from one.
-/
import ChartScript.Bar
import ChartScript.Calendar
import ChartScript.Csv
import ChartScript.Decimal.Basic

namespace ChartScript.Source

open Text

/-- What is wrong with comma-separated rows. -/
inductive CsvFault where
  /-- A record with another number of fields than the header. -/
  | width (start : Csv.Mark) (found expected : Nat)
  | missingTime (row : Nat)
  | invalidTime (row : Nat) (found : String)
  | invalidPrice (row : Nat) (column found : String)
deriving DecidableEq, Repr

/-- The wording of a fault. -/
def CsvFault.message : CsvFault → String
  | .width start found expected =>
      "CSV parse error: CSV error: record " ++
        s!"{start.record} (line: {start.line}, byte: {start.byte}): " ++
        s!"found record with {found} fields, but the previous record has {expected} fields"
  | .missingTime row => s!"row {row}: missing time column"
  | .invalidTime row found => s!"row {row}: invalid time '{found}'"
  | .invalidPrice row column found =>
      s!"row {row}: invalid {column} value '{found}': invalid float literal"

/-- Read a number of seconds that fits into sixty-four bits. -/
def readSeconds? (cs : List Char) : Option Int64 :=
  (readInt? cs).bind int64?

/-- Read a time: a number of seconds, or a date for its first second. -/
def readTime? (cs : List Char) : Option Int64 :=
  match readSeconds? (trim cs) with
  | some time => some time
  | none => (Calendar.readDate? (trim cs)).map Int64.ofInt

/-- Read the price in a column.  A blank or absent cell has none. -/
def readPrice (row : Nat) (fields : List (List Char)) (column : Nat) (name : String) :
    Except CsvFault (Option Float) :=
  let cell := trim (fields.getD column [])
  if cell.isEmpty then .ok none
  else
    match Decimal.readFloat? cell with
    | some price => .ok (some price)
    | none => .error (.invalidPrice row name (String.ofList cell))

/-- Read a row, which has the given number. -/
def readRow (row : Nat) (fields : List (List Char)) : Except CsvFault Row := do
  let time ←
    match fields with
    | [] => .error (.missingTime row)
    | cell :: _ =>
        match readTime? cell with
        | some time => .ok time
        | none => .error (.invalidTime row (String.ofList cell))
  let openPrice ← readPrice row fields 1 "open"
  let high ← readPrice row fields 2 "high"
  let low ← readPrice row fields 3 "low"
  let close ← readPrice row fields 4 "close"
  let volume ← readPrice row fields 5 "volume"
  return { time, openPrice, high, low, close, volume }

/-- Read records into rows, the first of which has the given number. -/
def readRecords (width row : Nat) : List Csv.Record → Except CsvFault (List Row)
  | [] => .ok []
  | record :: records => do
      if record.fields.length ≠ width then
        .error (.width record.start record.fields.length width)
      let first ← readRow row record.fields
      let others ← readRecords width (row + 1) records
      return first :: others

/-- The rows of a text. -/
def csvRows (cs : List Char) : Except CsvFault (List Row) :=
  match Csv.records cs with
  | [] => .ok []
  | header :: records => readRecords header.fields.length 2 records

end ChartScript.Source
