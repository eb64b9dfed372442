/-
Both formats of market data hold the same bars.

A provider's row has a time and up to five prices.  In comma-separated text it is a line of six
cells, and an absent price is an empty cell; in a document it is an object, and an absent price
is null or has no member.  Either way the row that is read is the one that was written, so the
bars of the two files are the same.  Only the numbers need care: the two formats read numbers
in different arithmetic, and it has to be given that these agree on the prices that occur.
-/
import ChartScript.Proofs.Csv
import ChartScript.Proofs.Json.Text
import ChartScript.Source.Basic

namespace ChartScript

open Text

/-- A provider's row before it is written. -/
structure WrittenRow where
  time : Int64
  openPrice : Option Literal
  high : Option Literal
  low : Option Literal
  close : Option Literal
  volume : Option Literal

namespace WrittenRow

/-- The number that a price is read as. -/
def priceOf (price : Option Literal) : Option Float :=
  price.bind fun literal => Decimal.readFloat? literal.text

/-- The row that it is read as. -/
def row (written : WrittenRow) : Row where
  time := written.time
  openPrice := priceOf written.openPrice
  high := priceOf written.high
  low := priceOf written.low
  close := priceOf written.close
  volume := priceOf written.volume

/-- Both ways to read numbers agree on the prices of the row. -/
def ReadsAlike (written : WrittenRow) : Prop :=
  ∀ price ∈ [written.openPrice, written.high, written.low, written.close, written.volume],
    ∀ literal ∈ price, literal.numeral.toFloat? = Decimal.readFloat? literal.text

end WrittenRow

namespace Source

/-! ### Comma-separated text -/

/-- The cell of a price. -/
def cellOf : Option Literal → List Char
  | none => []
  | some literal => literal.text

/-- The cells of a row. -/
def cellsOf (written : WrittenRow) : List (List Char) :=
  [signedDigits written.time.toInt, cellOf written.openPrice, cellOf written.high,
    cellOf written.low, cellOf written.close, cellOf written.volume]

theorem isNumberChar_of_mem_signedDigits {i : Int} {c : Char} (h : c ∈ signedDigits i) :
    IsNumberChar c := by
  unfold signedDigits at h
  split at h
  · rcases List.mem_cons.mp h with rfl | hdigit
    · exact Or.inr (by decide)
    · exact Or.inl (Json.Token.isDigit_of_mem_digits hdigit)
  · exact Or.inl (Json.Token.isDigit_of_mem_digits h)

theorem isNumberChar_of_mem_cellOf {price : Option Literal} {c : Char} (h : c ∈ cellOf price) :
    IsNumberChar c := by
  cases price with
  | none => cases h
  | some literal => exact literal.isNumberChar_of_mem_text h

theorem isPlain_of_isNumberChar {c : Char} (h : IsNumberChar c) : Csv.isPlain c = true := by
  rcases h with hdigit | hother
  · have hne : ∀ d : Char, d.isDigit = false → (c == d) = false :=
      fun d hd => Json.Token.beq_eq_false_of_class hdigit hd
    have hsmall := (Char.isDigit_iff_toNat.mp hdigit).2
    have hmark : c.toNat ≠ 0xFEFF := by
      intro h
      rw [h] at hsmall
      exact absurd hsmall (by decide)
    simp [Csv.isPlain, Csv.Reader.isLineEnd, bne, hne, hmark]
  · simp only [List.mem_cons, List.not_mem_nil, or_false] at hother
    rcases hother with rfl | rfl | rfl | rfl | rfl <;> rfl

/-- No cell of a row needs quotes. -/
theorem isUnquoted_cellsOf (written : WrittenRow) : Csv.IsUnquoted (cellsOf written) := by
  refine ⟨by simp [cellsOf], fun cell hcell c hc => isPlain_of_isNumberChar ?_⟩
  rcases List.mem_cons.mp hcell with rfl | hprice
  · exact isNumberChar_of_mem_signedDigits hc
  · simp only [List.mem_cons, List.not_mem_nil, or_false] at hprice
    rcases hprice with rfl | rfl | rfl | rfl | rfl <;> exact isNumberChar_of_mem_cellOf hc

theorem readInt?_signedDigits (i : Int) : readInt? (signedDigits i) = some i := by
  unfold signedDigits
  by_cases hneg : i < 0
  · rw [if_pos hneg]
    show (readNat? (digits i.natAbs)).map (fun n => -Int.ofNat n) = some i
    rw [readNat?_digits, Option.map_some, Int.ofNat_eq_natCast]
    exact congrArg some (by omega)
  · rw [if_neg hneg]
    obtain ⟨c, cs, hdigits⟩ := List.exists_cons_of_ne_nil (digits_ne_nil i.natAbs)
    have hc : c.isDigit = true :=
      Json.Token.isDigit_of_mem_digits (n := i.natAbs) (by rw [hdigits]; exact List.mem_cons_self)
    rw [hdigits, readInt?_of_isDigit hc, ← hdigits, readNat?_digits, Option.map_some,
      Int.ofNat_eq_natCast]
    exact congrArg some (by omega)

/-- A time is read from its digits. -/
theorem readTime?_signedDigits (time : Int64) :
    readTime? (signedDigits time.toInt) = some time := by
  have htrim : trim (signedDigits time.toInt) = signedDigits time.toInt :=
    (isTrimmed_of_forall fun c hc => (isNumberChar_of_mem_signedDigits hc).isBlank).trim_eq
  have hread : readSeconds? (signedDigits time.toInt) = some time := by
    rw [readSeconds?, readInt?_signedDigits]
    exact Numeral.int64?_toInt time
  simp only [readTime?, htrim, hread]

/-- A price is read from its cell. -/
theorem readPrice_cellOf (number : Nat) {fields : List (List Char)} {column : Nat}
    {price : Option Literal} (hcell : fields.getD column [] = cellOf price) (name : String) :
    readPrice number fields column name = .ok (WrittenRow.priceOf price) := by
  unfold readPrice
  rw [hcell]
  cases price with
  | none => rfl
  | some literal =>
      obtain ⟨x, hx⟩ := Option.isSome_iff_exists.mp literal.isSome_readFloat?
      have htrim : trim literal.text = literal.text :=
        (isTrimmed_of_forall fun c hc => (literal.isNumberChar_of_mem_text hc).isBlank).trim_eq
      simp [cellOf, WrittenRow.priceOf, htrim, literal.text_ne_nil, hx]

theorem readRow_cellsOf (number : Nat) (written : WrittenRow) :
    readRow number (cellsOf written) = .ok written.row := by
  have hopen : readPrice number (cellsOf written) 1 "open" =
      .ok (WrittenRow.priceOf written.openPrice) := readPrice_cellOf number rfl "open"
  have hhigh : readPrice number (cellsOf written) 2 "high" =
      .ok (WrittenRow.priceOf written.high) := readPrice_cellOf number rfl "high"
  have hlow : readPrice number (cellsOf written) 3 "low" =
      .ok (WrittenRow.priceOf written.low) := readPrice_cellOf number rfl "low"
  have hclose : readPrice number (cellsOf written) 4 "close" =
      .ok (WrittenRow.priceOf written.close) := readPrice_cellOf number rfl "close"
  have hvolume : readPrice number (cellsOf written) 5 "volume" =
      .ok (WrittenRow.priceOf written.volume) := readPrice_cellOf number rfl "volume"
  simp only [readRow, hopen, hhigh, hlow, hclose, hvolume]
  simp only [cellsOf, readTime?_signedDigits]
  rfl

theorem readRecords_eq {records : List Csv.Record} {written : List WrittenRow}
    (h : records.map Csv.Record.fields = written.map cellsOf) (number : Nat) :
    readRecords 6 number records = .ok (written.map WrittenRow.row) := by
  induction written generalizing records number with
  | nil =>
      rw [List.map_nil, List.map_eq_nil_iff] at h
      rw [h]
      rfl
  | cons first others ih =>
      cases records with
      | nil => cases h
      | cons record records =>
          obtain ⟨hrecord, hrecords⟩ := List.cons.inj h
          simp only [readRecords, hrecord, readRow_cellsOf, ih hrecords]
          rfl

/-- Lines are read as the rows that were written. -/
theorem csvRows_of_isText {header : List (List Char)} (hsix : header.length = 6)
    (hheader : Csv.IsUnquoted header) {written : List WrittenRow} {cs : List Char}
    (htext : Csv.IsText (header :: written.map cellsOf) cs) :
    csvRows cs = .ok (written.map WrittenRow.row) := by
  have hfields := Csv.fields_records htext (by
    rintro fields (_ | ⟨_, hfields⟩)
    · exact hheader
    · obtain ⟨row, -, rfl⟩ := List.mem_map.mp hfields
      exact isUnquoted_cellsOf row)
  unfold csvRows
  cases hrecords : Csv.records cs with
  | nil =>
      rw [hrecords] at hfields
      cases hfields
  | cons first records =>
      rw [hrecords] at hfields
      obtain ⟨hfirst, hothers⟩ := List.cons.inj hfields
      show readRecords first.fields.length 2 records = _
      rw [hfirst, hsix]
      exact readRecords_eq hothers 2

/-! ### Documents -/

/-- What the members of a price may hold: the price, or null or nothing if it is absent. -/
inductive IsPrice : Option Literal → List Json → Prop where
  | written (literal : Literal) : IsPrice (some literal) [.number literal.numeral]
  | null : IsPrice none [.null]
  | missing : IsPrice none []

/-- The members of an object that holds a row, in any order and among others. -/
structure IsRow (written : WrittenRow) (members : List (Option String × Json)) : Prop where
  keyed : ∀ member ∈ members, member.1.isSome = true
  time : Json.valuesOf "time" members = [.number (.ofInt written.time.toInt)]
  openPrice : IsPrice written.openPrice (Json.valuesOf "open" members)
  high : IsPrice written.high (Json.valuesOf "high" members)
  low : IsPrice written.low (Json.valuesOf "low" members)
  close : IsPrice written.close (Json.valuesOf "close" members)
  volume : IsPrice written.volume (Json.valuesOf "volume" members)

theorem priceOfMember?_of_isPrice {key : String} {members : List (Option String × Json)}
    {price : Option Literal} (h : IsPrice price (Json.valuesOf key members))
    (hreads : ∀ literal ∈ price,
      literal.numeral.toFloat? = Decimal.readFloat? literal.text) :
    priceOfMember? key members = some (WrittenRow.priceOf price) := by
  generalize hvalues : Json.valuesOf key members = values at h
  cases h with
  | written literal =>
      obtain ⟨x, hx⟩ := Option.isSome_iff_exists.mp literal.isSome_readFloat?
      have hread : literal.numeral.toFloat? = some x := (hreads literal rfl).trans hx
      simp [priceOfMember?, Json.optional?, hvalues, priceOfJson?, Json.asFloat?, hread,
        WrittenRow.priceOf, hx]
  | null => simp [priceOfMember?, Json.optional?, hvalues, priceOfJson?, WrittenRow.priceOf]
  | missing => simp [priceOfMember?, Json.optional?, hvalues, WrittenRow.priceOf]

/-- An object is read as the row that was written. -/
theorem rowOfJson?_of_isRow {written : WrittenRow} {members : List (Option String × Json)}
    (h : IsRow written members) (hreads : written.ReadsAlike) :
    rowOfJson? (.object members) = some written.row := by
  have hkeyed : (members.any fun member => member.1.isNone) = false := by
    rw [List.any_eq_false]
    intro member hmember
    simp [Option.isSome_iff_ne_none.mp (h.keyed member hmember)]
  have htime : Json.required? "time" members = some (.number (.ofInt written.time.toInt)) := by
    rw [Json.required?, h.time]
  have hopen := priceOfMember?_of_isPrice h.openPrice (hreads written.openPrice (by simp))
  have hhigh := priceOfMember?_of_isPrice h.high (hreads written.high (by simp))
  have hlow := priceOfMember?_of_isPrice h.low (hreads written.low (by simp))
  have hclose := priceOfMember?_of_isPrice h.close (hreads written.close (by simp))
  have hvolume := priceOfMember?_of_isPrice h.volume (hreads written.volume (by simp))
  simp [rowOfJson?, hkeyed, htime, Json.asInt64?, Numeral.toInt64?_ofInt, hopen, hhigh, hlow,
    hclose, hvolume, WrittenRow.row]

theorem jsonRows?_of_isText {written : List WrittenRow}
    {objects : List (List (Option String × Json))} (hobjects : List.Forall₂ IsRow written objects)
    (hreads : ∀ row ∈ written, row.ReadsAlike) {cs : List Char}
    (htext : (Json.list (objects.map Json.object)).IsText cs) :
    jsonRows? cs = some (written.map WrittenRow.row) := by
  have hrows : (objects.map Json.object).mapM rowOfJson? = some (written.map WrittenRow.row) := by
    clear htext
    induction hobjects with
    | nil => rfl
    | cons hfirst _ ih =>
        obtain ⟨hread, hothers⟩ := List.forall_mem_cons.mp hreads
        rw [List.map_cons, List.mapM_cons, rowOfJson?_of_isRow hfirst hread, ih hothers]
        rfl
  rw [jsonRows?, Json.parse?_of_isText htext]
  exact hrows

/-! ### Both formats -/

/-- Bars are fetched from a file whose rows can be read. -/
theorem fetch_of_readRows {files : FileSystem Id} {source : Source} {symbol text : String}
    {rows : List Row} (hfile : files.readText (source.path symbol) = Except.ok text)
    (hrows : readRows source.format (source.path symbol) text = .ok rows) :
    source.fetch files symbol = Except.ok (Bar.ofRows rows) := by
  rw [fetch_eq, hfile]
  simp only [hrows]

/-- **A file of lines and a document that hold the same rows have the same bars.**  Each format
is read from a directory of its own; lines may end in any way, and objects may be written in
any way. -/
theorem same_bars_in_both_formats (files : FileSystem Id)
    (csvDirectory jsonDirectory symbol : String) {written : List WrittenRow}
    (hreads : ∀ row ∈ written, row.ReadsAlike)
    {header : List (List Char)} (hsix : header.length = 6) (hheader : Csv.IsUnquoted header)
    {lines : String} (hlines : Csv.IsText (header :: written.map cellsOf) lines.toList)
    {objects : List (List (Option String × Json))} (hobjects : List.Forall₂ IsRow written objects)
    {document : String} (hdocument : (Json.list (objects.map Json.object)).IsText document.toList)
    (hcsv : files.readText (path ⟨csvDirectory, .csv⟩ symbol) = Except.ok lines)
    (hjson : files.readText (path ⟨jsonDirectory, .json⟩ symbol) = Except.ok document) :
    fetch files ⟨csvDirectory, .csv⟩ symbol = Except.ok (Bar.ofRows (written.map WrittenRow.row)) ∧
      fetch files ⟨jsonDirectory, .json⟩ symbol =
        Except.ok (Bar.ofRows (written.map WrittenRow.row)) := by
  constructor
  · refine fetch_of_readRows hcsv ?_
    rw [readRows, csvRows_of_isText hsix hheader hlines]
  · refine fetch_of_readRows hjson ?_
    rw [readRows, jsonRows?_of_isText hobjects hreads hdocument]

/-- Two rows, the second of which is a gap, in lines with different ends and in a document with
blanks and with prices that are null or missing. -/
theorem same_bars_of_a_row_and_a_gap :
    let lines := "time,open,high,low,close,volume\n200,2.5,,,3e2,\r\n100,,,,,"
    let document :=
      "[\x7b\"time\": 200, \"open\": 2.5, \"high\": null, \"close\": 3e2\x7d,\n " ++
        "\x7b\"time\": 100\x7d]"
    let files : FileSystem Id :=
      ⟨fun path => if path = "lines/S.csv" then Except.ok lines else Except.ok document,
        fun _ => Except.error .notFound⟩
    fetch files ⟨"lines", .csv⟩ "S" =
        Except.ok [⟨200, 2.5, Scalar.undefined, Scalar.undefined, 300, Scalar.undefined⟩] ∧
      fetch files ⟨"documents", .json⟩ "S" =
        Except.ok [⟨200, 2.5, Scalar.undefined, Scalar.undefined, 300, Scalar.undefined⟩] := by
  intro lines document files
  let opened : Literal := { Literal.ofInt 2 with fraction := ['5'], isDigit_fraction := by simp }
  let closed : Literal :=
    { Literal.ofInt 3 with
      exponent := ['e', '2']
      isExponent := .digits (Or.inl rfl) (Or.inl rfl) (by simp) (by simp) }
  let first : WrittenRow := ⟨200, some opened, none, none, some closed, none⟩
  let gap : WrittenRow := ⟨100, none, none, none, none, none⟩
  let header := ["time".toList, "open".toList, "high".toList, "low".toList, "close".toList,
    "volume".toList]
  let objects : List (List (Option String × Json)) :=
    [[(some "time", .number (.ofInt 200)), (some "open", .number opened.numeral),
      (some "high", .null), (some "close", .number closed.numeral)],
      [(some "time", .number (.ofInt 100))]]
  have hopened : opened.numeral.toFloat? = Decimal.readFloat? opened.text := by decide +kernel
  have hclosed : closed.numeral.toFloat? = Decimal.readFloat? closed.text := by decide +kernel
  have hreads : ∀ row ∈ [first, gap], row.ReadsAlike := by
    simp [WrittenRow.ReadsAlike, first, gap, hopened, hclosed]
  have hheader : Csv.IsUnquoted header :=
    ⟨by decide, by simp [header, Csv.isPlain, Csv.Reader.isLineEnd]⟩
  have hlines : Csv.IsText (header :: [first, gap].map cellsOf) lines.toList := by
    have htext := Csv.IsText.more header .feed (.more (cellsOf first) .both (.last (cellsOf gap)))
    exact Eq.mp (congrArg (Csv.IsText _) (by decide +kernel)) htext
  have hobjects : List.Forall₂ IsRow [first, gap] objects := by
    refine .cons ⟨by simp, rfl, .written opened, .null, .missing, .written closed, .missing⟩ ?_
    exact .cons ⟨by simp, rfl, .missing, .missing, .missing, .missing, .missing⟩ .nil
  have hdocument : (Json.list (objects.map Json.object)).IsText document.toList := by
    have hmember (key : String) {tokens : List Json.Token} {cs : List Char}
        (h : Json.Token.IsText tokens cs) :
        Json.Token.IsText (.text (some key) :: .colon :: tokens)
          (Json.quoted (some key) ++ ':' :: ' ' :: cs) :=
      .text key (.mark rfl (.blank rfl h))
    have hcomma {tokens : List Json.Token} {cs : List Char} (h : Json.Token.IsText tokens cs) :
        Json.Token.IsText (.comma :: tokens) (',' :: ' ' :: cs) :=
      .mark rfl (.blank rfl h)
    have hend := Json.Token.IsText.mark (c := '\x7d') rfl (.mark (c := ']') rfl .none)
    have hgap := Json.Token.IsText.mark (c := '\x7b') rfl
      (hmember "time" (.number (.ofInt 100) (Json.Token.delimits_mark rfl _) hend))
    have hbetween := Json.Token.IsText.mark (c := '\x7d') rfl
      (.mark (c := ',') rfl (.blank (c := '\n') rfl (.blank (c := ' ') rfl hgap)))
    have hclose := hmember "close"
      (.number closed (Json.Token.delimits_mark rfl _) hbetween)
    have hnull : Json.Token.word? "null".toList = some .null := rfl
    have hhigh := hmember "high" (.word _ hnull (Json.Token.delimits_mark rfl _) (hcomma hclose))
    have hopen := hmember "open"
      (.number opened (Json.Token.delimits_mark rfl _) (hcomma hhigh))
    have htime := hmember "time"
      (.number (.ofInt 200) (Json.Token.delimits_mark rfl _) (hcomma hopen))
    have htext := Json.Token.IsText.mark (c := '[') rfl (.mark (c := '\x7b') rfl htime)
    exact Eq.mp (congrArg (Json.Token.IsText _) (by decide +kernel)) htext
  have hbars : Bar.ofRows ([first, gap].map WrittenRow.row) =
      [⟨200, 2.5, Scalar.undefined, Scalar.undefined, 300, Scalar.undefined⟩] := by
    have hrows : ([first, gap].map WrittenRow.row).filterMap Row.toBar? =
        [⟨200, 2.5, Scalar.undefined, Scalar.undefined, 300, Scalar.undefined⟩] := by
      decide +kernel
    rw [Bar.ofRows, hrows, List.mergeSort_singleton]
  have hfetch := same_bars_in_both_formats files "lines" "documents" "S" hreads rfl hheader hlines
    hobjects hdocument rfl rfl
  rwa [hbars] at hfetch

end Source

end ChartScript
