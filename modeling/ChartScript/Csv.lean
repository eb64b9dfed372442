/-
Records of comma-separated text.

A record ends at a line feed, at a carriage return, or at the two together, and empty
lines between records do not count.  A field is quoted only if a quote is its first
character; inside it a doubled quote stands for one, and what follows the closing quote
up to the next comma belongs to the field as well.  A byte order mark at the very start
is skipped.

Each record remembers where the reader stood when it began to look for it, which is in
front of the empty lines that it skipped, and between a carriage return and the line
feed behind it.
-/
import ChartScript.Text.Lines

namespace ChartScript.Csv

open Text

/-- A place in the text: the number of records before it, the line counted from one,
and the bytes before it. -/
structure Mark where
  record : Nat
  line : Nat
  byte : Nat
deriving DecidableEq, Repr

/-- A record, and where the reader began to look for it. -/
structure Record where
  fields : List (List Char)
  start : Mark
deriving DecidableEq, Repr

/-- Where the reader stands within a record. -/
inductive Mode where
  /-- In front of a record. -/
  | between
  /-- In front of a record and behind a carriage return. -/
  | afterReturn
  /-- In front of a field. -/
  | fieldStart
  /-- In a field that is not quoted, or behind its quotes. -/
  | plain
  /-- Inside quotes. -/
  | quoted
  /-- Behind a quote inside quotes. -/
  | afterQuote
deriving DecidableEq, Repr

/-- The state of the reader. -/
structure Reader where
  mode : Mode
  /-- The characters of the current field, the last one first. -/
  field : List Char
  /-- The fields of the current record before the current one, the last one first. -/
  fields : List (List Char)
  /-- Where the current record began. -/
  start : Mark
  line : Nat
  byte : Nat

namespace Reader

/-- In front of a text, `byte` bytes from the start of the file. -/
def initial (byte : Nat) : Reader :=
  ⟨.between, [], [], ⟨0, 1, byte⟩, 1, byte⟩

/-- Count a character. -/
def count (r : Reader) (c : Char) : Reader :=
  { r with line := if c == '\n' then r.line + 1 else r.line, byte := r.byte + c.utf8Size }

/-- Add a character to the current field. -/
def put (r : Reader) (mode : Mode) (c : Char) : Reader :=
  { r with mode, field := c :: r.field }

/-- End the current field. -/
def endField (r : Reader) : Reader :=
  { r with mode := .fieldStart, field := [], fields := r.field.reverse :: r.fields }

/-- The current record, its last field ended. -/
def record (r : Reader) : Record :=
  ⟨(r.field.reverse :: r.fields).reverse, r.start⟩

/-- In front of the next record. -/
def nextRecord (r : Reader) (mode : Mode) : Reader :=
  { r with
    mode
    field := []
    fields := []
    start := ⟨r.start.record + 1, r.line, r.byte⟩ }

/-- A character that ends records. -/
def isLineEnd (c : Char) : Bool :=
  c == '\n' || c == '\r'

/-- Read a character outside quotes, behind which no field is open that could take a
quote.  The character has been counted. -/
def readOutside (r : Reader) (c : Char) : Option Record × Reader :=
  if c == ',' then (none, r.endField)
  else if isLineEnd c then
    (some r.record, r.nextRecord (if c == '\r' then .afterReturn else .between))
  else (none, r.put .plain c)

/-- Read a character in front of a field. -/
def readFieldStart (r : Reader) (c : Char) : Option Record × Reader :=
  if c == '\x22' then (none, { r with mode := .quoted }) else r.readOutside c

/-- Read a character, which may complete a record. -/
def next (r : Reader) (c : Char) : Option Record × Reader :=
  let r := r.count c
  match r.mode with
  | .between | .afterReturn =>
      if isLineEnd c then (none, { r with mode := .between }) else r.readFieldStart c
  | .fieldStart => r.readFieldStart c
  | .plain => r.readOutside c
  | .quoted => if c == '\x22' then (none, { r with mode := .afterQuote }) else (none, r.put .quoted c)
  | .afterQuote => if c == '\x22' then (none, r.put .quoted c) else r.readOutside c

/-- The record that the end of the text completes, if one has begun. -/
def last (r : Reader) : List Record :=
  match r.mode with
  | .between | .afterReturn => []
  | _ => [r.record]

/-- The records from here on. -/
def records (r : Reader) : List Char → List Record
  | [] => r.last
  | c :: cs =>
      match r.next c with
      | (some record, r) => record :: r.records cs
      | (none, r) => r.records cs

end Reader

/-- The records of a text, the first of which is its header. -/
def records : List Char → List Record
  | [] => []
  | c :: cs =>
      if c.toNat == 0xFEFF then (Reader.initial c.utf8Size).records cs
      else (Reader.initial 0).records (c :: cs)

end ChartScript.Csv
