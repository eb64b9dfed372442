/-
Scripts as rows.

What a line is read as depends on its trimmed row, and on its number only as far as
statements and faults carry it.  So a script is read row by row, blanks at the ends of a row
do not matter, and other numbers for the rows are other numbers for what they are read as.
A row that is idle, because it is blank, a comment, a declaration or nothing that the
language knows, takes up a number and gives no statement.
-/
import ChartScript.Proofs.Script.Reading
import ChartScript.Proofs.Text.Rows

namespace ChartScript

open Text

/-! ### Other numbers -/

/-- The same fault on another line. -/
def ScriptError.renumber (f : Nat → Nat) (e : ScriptError) : ScriptError :=
  { e with line := f e.line }

/-- The same statement on another line. -/
def Statement.renumber (f : Nat → Nat) (s : Statement) : Statement :=
  { s with line := f s.line }

namespace Line

/-- What a line means on another line. -/
def renumber (f : Nat → Nat) : Line → Line
  | .declaration title => .declaration title
  | .statement s => .statement (s.renumber f)

theorem meaning_renumber (f : Nat → Nat) (number : Nat) (form : Form) :
    meaning (f number) form = (meaning number form).map (Option.map (renumber f)) := by
  cases form with
  | blank => rfl
  | declaration arguments => rfl
  | plot code arguments =>
      simp only [meaning]
      cases plotStatement code arguments <;> rfl
  | assignment target expression =>
      simp only [meaning]
      cases Expression.parse expression <;> rfl
  | invalidTarget target => rfl
  | unrecognised code => rfl

/-- A line is read the same on another line, but for the number that it carries. -/
theorem parse_renumber (f : Nat → Nat) (number : Nat) (raw : List Char) :
    parse (f number) raw =
      ((parse number raw).map (Option.map (renumber f))).mapError (ScriptError.renumber f) := by
  unfold parse
  rw [meaning_renumber]
  cases meaning number (form raw) <;> rfl

/-- A line is read after trimming. -/
theorem parse_eq_of_trim_eq {raw raw' : List Char} (h : trim raw = trim raw') (number : Nat) :
    parse number raw = parse number raw' := by
  have hform : form raw = form raw' := by
    unfold form
    rw [h]
  unfold parse
  rw [hform]

/-- A form of line that says nothing a run would execute and has nothing wrong with it. -/
def Form.IsIdle : Form → Prop
  | .blank | .declaration _ | .unrecognised _ => True
  | .plot _ _ | .assignment _ _ | .invalidTarget _ => False

instance : DecidablePred Form.IsIdle
  | .blank | .declaration _ | .unrecognised _ => .isTrue trivial
  | .plot _ _ | .assignment _ _ | .invalidTarget _ => .isFalse id

/-- A line is idle if reading it gives nothing or a declaration, whatever its number is. -/
theorem isIdle_iff {raw : List Char} :
    (form raw).IsIdle ↔ ∀ number,
      parse number raw = .ok none ∨
        ∃ title, parse number raw = .ok (some (.declaration title)) := by
  unfold parse
  cases form raw with
  | blank => exact iff_of_true trivial fun _ => Or.inl rfl
  | unrecognised code => exact iff_of_true trivial fun _ => Or.inl rfl
  | declaration arguments => exact iff_of_true trivial fun _ => Or.inr ⟨_, rfl⟩
  | invalidTarget target => exact iff_of_false id fun h => by simpa [meaning] using h 0
  | plot code arguments =>
      refine iff_of_false id fun h => ?_
      have hzero := h 0
      simp only [meaning] at hzero
      cases hplot : plotStatement code arguments <;> simp [hplot] at hzero
  | assignment target expression =>
      refine iff_of_false id fun h => ?_
      have hzero := h 0
      simp only [meaning] at hzero
      cases hexpression : Expression.parse expression <;> simp [hexpression] at hzero

/-- A blank line is idle. -/
theorem isIdle_of_blanks {raw : List Char} (h : ∀ c ∈ raw, isBlank c = true) :
    (form raw).IsIdle := by
  have hform : form raw = .blank := by
    unfold form
    rw [trim_of_blanks h]
    rfl
  rw [hform]
  trivial

end Line

namespace Script

/-- What has been read of a line, or its fault, on another line. -/
def renumber (f : Nat → Nat) : Except ScriptError Line → Except ScriptError Line
  | .error e => .error (e.renumber f)
  | .ok line => .ok (line.renumber f)

theorem readLine?_renumber (f : Nat → Nat) (number : Nat) (raw : List Char) :
    readLine? (f number, raw) = (readLine? (number, raw)).map (renumber f) := by
  unfold readLine?
  rw [Line.parse_renumber]
  cases Line.parse number raw with
  | error e => rfl
  | ok line? => cases line? <;> rfl

/-! ### Rows -/

/-- What some rows are read as, numbered from `first`. -/
def readRows (first : Nat) (rows : List (List Char)) : List (Except ScriptError Line) :=
  (rows.zipIdx first).filterMap fun (row, number) => readLine? (number, row)

@[simp] theorem readRows_nil (first : Nat) : readRows first [] = [] := rfl

theorem readRows_cons (first : Nat) (row : List Char) (rest : List (List Char)) :
    readRows first (row :: rest) =
      (readLine? (first, row)).toList ++ readRows (first + 1) rest := by
  simp only [readRows, List.zipIdx_cons, List.filterMap_cons]
  cases readLine? (first, row) <;> rfl

theorem readRows_append (first : Nat) (rows more : List (List Char)) :
    readRows first (rows ++ more) = readRows first rows ++ readRows (first + rows.length) more := by
  simp only [readRows, List.zipIdx_append, List.filterMap_append]

theorem readLine?_eq_of_trim_eq {raw raw' : List Char} (h : trim raw = trim raw')
    (number : Nat) : readLine? (number, raw) = readLine? (number, raw') := by
  simp only [readLine?, Line.parse_eq_of_trim_eq h]

/-- Nothing is read of an empty row. -/
theorem readLine?_nil (number : Nat) : readLine? (number, []) = none := rfl

/-- Read some lines, numbered from `first`. -/
theorem readRows_lines (first : Nat) {rows : List (List Char)} (h : ∀ row ∈ rows, '\n' ∉ row) :
    readRows first (lines (ofRows rows)) = readRows first rows := by
  induction rows generalizing first with
  | nil => rfl
  | cons row rest ih =>
      have hrow : '\n' ∉ row := h row List.mem_cons_self
      have hrest : ∀ r ∈ rest, '\n' ∉ r := fun r hr => h r (List.mem_cons_of_mem row hr)
      cases rest with
      | nil =>
          rw [ofRows_singleton, lines, linesFrom_last hrow, List.reverse_nil, List.nil_append]
          cases row with
          | nil => rw [readRows_cons, readLine?_nil]; rfl
          | cons c cs => rfl
      | cons next more =>
          rw [ofRows_cons_cons, lines, linesFrom_append_newline hrow, List.reverse_nil,
            List.nil_append, readRows_cons, readRows_cons,
            readLine?_eq_of_trim_eq (trim_withoutReturn row), ih (first + 1) hrest]

/-- **A script is read row by row.** -/
theorem readLines_ofRows {rows : List (List Char)} (h : ∀ row ∈ rows, '\n' ∉ row) :
    readLines (ofRows rows) = readRows 1 rows := by
  rw [← readRows_lines 1 h, readLines, numbered, readRows, List.filterMap_map]
  rfl

/-- Rows with other numbers are read as the same with these numbers. -/
theorem readRows_renumber (f : Nat → Nat) {first second : Nat} {rows : List (List Char)}
    (h : ∀ i < rows.length, f (first + i) = second + i) :
    readRows second rows = (readRows first rows).map (renumber f) := by
  induction rows generalizing first second with
  | nil => rfl
  | cons row rest ih =>
      have hfirst : f first = second := h 0 (Nat.zero_lt_succ _)
      have hrest : ∀ i < rest.length, f (first + 1 + i) = second + 1 + i := by
        intro i hi
        have hnext := h (i + 1) (Nat.succ_lt_succ hi)
        rwa [show first + (i + 1) = first + 1 + i by omega,
          show second + (i + 1) = second + 1 + i by omega] at hnext
      rw [readRows_cons, readRows_cons, ih hrest, ← hfirst, readLine?_renumber, List.map_append]
      cases readLine? (first, row) <;> rfl

/-- Blanks at the ends of rows do not matter. -/
theorem readRows_of_pads {rows padded : List (List Char)} (h : List.Forall₂ Pads rows padded)
    (first : Nat) : readRows first padded = readRows first rows := by
  induction h generalizing first with
  | nil => rfl
  | cons hrow _ ih =>
      rw [readRows_cons, readRows_cons, ih, readLine?_eq_of_trim_eq hrow.trim_eq]

/-- **Other layouts of the rows of a script are read alike.** -/
theorem readLines_ofRows_of_pads {rows padded : List (List Char)}
    (h : List.Forall₂ Pads rows padded) (hrows : ∀ row ∈ rows, '\n' ∉ row) :
    readLines (ofRows padded) = readLines (ofRows rows) := by
  rw [readLines_ofRows (newline_not_mem_of_pads h hrows), readLines_ofRows hrows,
    readRows_of_pads h]

/-! ### Idle rows -/

/-- A declaration that has been read. -/
def declared (title : Option String) : Except ScriptError Line :=
  .ok (.declaration title)

/-- Of an idle row at most a declaration is read. -/
theorem readLine?_of_isIdle {raw : List Char} (h : (Line.form raw).IsIdle) (number : Nat) :
    ∃ titles : List (Option String),
      (readLine? (number, raw)).toList = titles.map declared := by
  unfold readLine?
  rcases Line.isIdle_iff.mp h number with hnothing | ⟨title, htitle⟩
  · exact ⟨[], by rw [hnothing]; rfl⟩
  · exact ⟨[title], by rw [htitle]; rfl⟩

/-- Of idle rows at most declarations are read. -/
theorem readRows_of_isIdle {rows : List (List Char)} (h : ∀ row ∈ rows, (Line.form row).IsIdle)
    (first : Nat) : ∃ titles : List (Option String), readRows first rows = titles.map declared := by
  induction rows generalizing first with
  | nil => exact ⟨[], rfl⟩
  | cons row rest ih =>
      obtain ⟨titles, htitles⟩ := readLine?_of_isIdle (h row List.mem_cons_self) first
      obtain ⟨more, hmore⟩ := ih (fun r hr => h r (List.mem_cons_of_mem row hr)) (first + 1)
      exact ⟨titles ++ more, by rw [readRows_cons, htitles, hmore, List.map_append]⟩

/-- The number of a line when a new line has come to stand at `place`. -/
def pushed (place number : Nat) : Nat :=
  if place ≤ number then number + 1 else number

/-- **An idle row moves the rows from its place on down by one, and that is all.** -/
theorem readLines_insert {above below : List (List Char)} {new : List Char}
    (hrows : ∀ row ∈ above ++ below, '\n' ∉ row) (hnew : '\n' ∉ new)
    (h : (Line.form new).IsIdle) :
    ∃ (before after : List (Except ScriptError Line)) (titles : List (Option String)),
      readLines (ofRows (above ++ below)) = before ++ after ∧
      readLines (ofRows (above ++ new :: below)) =
        before.map (renumber (pushed (above.length + 1))) ++
          (titles.map declared ++ after.map (renumber (pushed (above.length + 1)))) := by
  obtain ⟨habove, hbelow⟩ := List.forall_mem_append.mp hrows
  have hinserted : ∀ row ∈ above ++ new :: below, '\n' ∉ row :=
    List.forall_mem_append.mpr ⟨habove, List.forall_mem_cons.mpr ⟨hnew, hbelow⟩⟩
  obtain ⟨titles, htitles⟩ := readLine?_of_isIdle h (1 + above.length)
  refine ⟨readRows 1 above, readRows (1 + above.length) below, titles, ?_, ?_⟩
  · rw [readLines_ofRows hrows, readRows_append]
  · have habove : readRows 1 above =
        (readRows 1 above).map (renumber (pushed (above.length + 1))) := by
      refine readRows_renumber _ fun i hi => ?_
      rw [pushed, if_neg (by omega)]
    have hbelow : readRows (1 + above.length + 1) below =
        (readRows (1 + above.length) below).map (renumber (pushed (above.length + 1))) := by
      refine readRows_renumber _ fun i _ => ?_
      rw [pushed, if_pos (by omega)]
      omega
    rw [readLines_ofRows hinserted, readRows_append, readRows_cons, htitles, hbelow, ← habove]

/-! ### The statements of a script -/

/-- The statements among some lines, up to the first fault. -/
def gather : List (Except ScriptError Line) → Except ScriptError (List Statement)
  | [] => .ok []
  | .error e :: _ => .error e
  | .ok (.declaration _) :: rest => gather rest
  | .ok (.statement s) :: rest => (gather rest).map (s :: ·)

/-- Apart from its title, a script is the statements among its lines. -/
theorem parse_map_statements (cs : List Char) :
    (parse cs).map Script.statements = gather (readLines cs) := by
  have hcollect : ∀ (lines : List (Except ScriptError Line)) (script : Script),
      (collect script lines).map Script.statements =
        (gather lines).map (script.statements ++ ·) := by
    intro lines
    induction lines with
    | nil => intro script; simp [collect, gather, Except.map]
    | cons item rest ih =>
        intro script
        match item with
        | .error e => rfl
        | .ok (.declaration title) => exact ih _
        | .ok (.statement s) =>
            rw [collect, ih, gather]
            cases gather rest with
            | error e => rfl
            | ok statements => simp [Except.map]
  rw [parse, hcollect]
  cases gather (readLines cs) <;> rfl

theorem gather_renumber (f : Nat → Nat) (lines : List (Except ScriptError Line)) :
    gather (lines.map (renumber f)) =
      ((gather lines).map (List.map (Statement.renumber f))).mapError (ScriptError.renumber f) := by
  induction lines with
  | nil => rfl
  | cons item rest ih =>
      match item with
      | .error e => rfl
      | .ok (.declaration title) => exact ih
      | .ok (.statement s) =>
          rw [List.map_cons, renumber, Line.renumber, gather, ih, gather]
          cases gather rest <;> rfl

/-- Declarations give no statement. -/
theorem gather_declared (before after : List (Except ScriptError Line))
    (titles : List (Option String)) :
    gather (before ++ (titles.map declared ++ after)) = gather (before ++ after) := by
  induction before with
  | nil =>
      induction titles with
      | nil => rfl
      | cons title titles ih => exact ih
  | cons item rest ih =>
      match item with
      | .error e => rfl
      | .ok (.declaration title) => exact ih
      | .ok (.statement s) => rw [List.cons_append, gather, ih, List.cons_append, gather]

end Script

end ChartScript
