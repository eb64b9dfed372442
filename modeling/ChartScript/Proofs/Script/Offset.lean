/-
Reading a script by offsets.

A line is cut in many places: blanks and a comment are taken off its ends, a word is taken off in
front of an argument list, and an assignment is cut at its equals sign.  Here each of these cuts is
made at an offset, as are those in calls and in arithmetic, and any of them may fail.

None does, and what is read is the script.  An offset is also what a parse error keeps, and it is
a boundary of the text that the error is shown with.
-/
import ChartScript.Proofs.Arithmetic.Offset
import ChartScript.Proofs.Indicator.Offset
import ChartScript.Proofs.Script.Caret

namespace ChartScript

open Text

/-! ### Right-hand sides -/

/-- Read a right-hand side by offsets. -/
def Expression.parseAt? (cs : List Char) : Option (Except ScriptFault Expression) := do
  let text ← trimAt? cs
  match ← Indicator.readCallAt? text with
  | some (.ok call) => some (.ok (.indicator call))
  | some (.error fault) => some (.error fault)
  | none =>
      match ← Arithmetic.parseAt? text with
      | .ok tree => some (.ok (.arithmetic tree))
      | .error e => some (.ok (.invalid (String.ofList text) e))

theorem Expression.parseAt?_eq (cs : List Char) : parseAt? cs = some (parse cs) := by
  simp only [parseAt?, trimAt?_eq, Indicator.readCallAt?_eq, Arithmetic.parseAt?_eq, parse,
    Option.bind_eq_bind, Option.bind_some]
  cases Indicator.readCall? (trim cs) with
  | none => cases Arithmetic.parse (trim cs) <;> rfl
  | some read => cases read <;> rfl

namespace Line

/-! ### The code of a line -/

/-- The part of a line in front of its comment, reading on from an offset with the character `last`
in front of it.  A comment is seen at its second slash, and the cut is made at the first one. -/
def withoutCommentFrom? (line : List Char) (q : Quotation) (last : Option Char) (offset : Nat) :
    List Char → Option (List Char)
  | [] => some line
  | c :: rest =>
      if c == '/' && q.isOutside && last == some '/' then (minus? offset 1).bind (upTo? line)
      else withoutCommentFrom? line (q.next c) (some c) (offset + c.utf8Size) rest

/-- The part of a line in front of its comment. -/
def withoutCommentAt? (line : List Char) : Option (List Char) :=
  withoutCommentFrom? line .start none 0 line

/-- The code of a trimmed line. -/
def codeAt? (line : List Char) : Option (List Char) := do
  trimEndAt? (← withoutCommentAt? line)

/-- A slash opens no quoted run and closes none. -/
theorem isOutside_next_slash (q : Quotation) : (q.next '/').isOutside = q.isOutside := by
  rw [Quotation.isOutside, Quotation.opener_next_of_not_quote rfl, Quotation.isOutside]

/-- Unless a comment has been started, what is left is the text in front and the code behind. -/
theorem withoutCommentFrom?_append {q : Quotation} {front cs : List Char}
    (h : q.isOutside = true → front.getLast? = some '/' → cs.head? ≠ some '/') :
    withoutCommentFrom? (front ++ cs) q front.getLast? (byteLength front) cs =
      some (front ++ codeFrom q cs) := by
  induction cs generalizing q front with
  | nil => rfl
  | cons c cs ih =>
      have hstays : ¬(c == '/' && q.isOutside && front.getLast? == some '/') = true := by
        intro hcut
        simp only [Bool.and_eq_true, beq_iff_eq] at hcut
        exact h hcut.1.2 hcut.2 (by rw [hcut.1.1]; rfl)
      rw [withoutCommentFrom?, if_neg hstays]
      by_cases hslashes : SlashesBehind q (c :: cs) []
      · -- The next character is the second slash, at which the reader steps back.
        obtain ⟨rfl, houtside, hnext⟩ := slashesBehind_nil_iff.mp hslashes
        obtain ⟨rest, rfl⟩ := List.head?_eq_some_iff.mp hnext
        have hsize : '/'.utf8Size = 1 := rfl
        have hcut : ('/' == '/' && (q.next '/').isOutside && some '/' == some '/') = true := by
          rw [isOutside_next_slash, houtside]
          rfl
        rw [withoutCommentFrom?, if_pos hcut, hsize, minus?_eq, Option.bind_some, upTo?_append,
          codeFrom_cons_of_slashes hslashes, List.append_nil]
      · have hbehind : (q.next c).isOutside = true → (front ++ [c]).getLast? = some '/' →
            cs.head? ≠ some '/' := by
          intro houtside hlast hnext
          obtain rfl : c = '/' := by
            rw [List.getLast?_concat] at hlast
            exact Option.some.inj hlast
          rw [isOutside_next_slash] at houtside
          exact hslashes (slashesBehind_nil_iff.mpr ⟨rfl, houtside, hnext⟩)
        have hmore := ih hbehind
        rw [List.getLast?_concat, byteLength_append, byteLength_cons, byteLength_nil, Nat.add_zero,
          List.append_assoc, List.append_assoc, List.singleton_append,
          List.singleton_append] at hmore
        rw [hmore, codeFrom_cons_of_not_slashes hslashes]

/-- **The comment starts at a boundary, and is cut off there.** -/
theorem withoutCommentAt?_eq (line : List Char) :
    withoutCommentAt? line = some (withoutComment line) := by
  have hstart : Quotation.start.isOutside = true → ([] : List Char).getLast? = some '/' →
      line.head? ≠ some '/' := fun _ hlast => by cases hlast
  exact withoutCommentFrom?_append hstart

theorem codeAt?_eq (line : List Char) : codeAt? line = some (code line) := by
  simp only [codeAt?, withoutCommentAt?_eq, trimEndAt?_eq, Option.bind_eq_bind, Option.bind_some,
    code]

/-! ### The form of a line -/

/-- If a line starts with a word and an opening parenthesis, the text from the parenthesis on. -/
def callAt? (word : String) (code : List Char) : Option (Option (List Char)) := do
  match ← behindAt? word.toList code with
  | none => some none
  | some rest =>
      let arguments ← trimStartAt? rest
      some (if arguments.head? == some '(' then some arguments else none)

/-- The form of a line that neither declares nor plots.  It is cut around its first equals sign. -/
def assignmentFormAt? (code : List Char) : Option Form :=
  match code.dropWhile (· != '=') with
  | [] => some (.unrecognised code)
  | _ :: _ => do
      let equals := byteLength (code.takeWhile (· != '='))
      let left ← upTo? code equals
      let right ← from? code (equals + 1)
      let comparison := right.head? == some '=' || left.getLast? == some '!' ||
        left.getLast? == some '<' || left.getLast? == some '>'
      if comparison then some (.unrecognised code)
      else
        let target ← trimAt? left
        if isIdentifier target then some (.assignment target (← trimAt? right))
        else if target.contains '(' then some (.unrecognised code)
        else some (.invalidTarget target)

/-- The form of a line. -/
def formAt? (raw : List Char) : Option Form := do
  let line ← trimAt? raw
  if line.isEmpty || "//".toList.isPrefixOf line then some .blank
  else
    let code ← codeAt? line
    match ← callAt? "indicator" code with
    | some arguments => some (.declaration arguments)
    | none =>
        match ← callAt? "plot" code with
        | some arguments => some (.plot code arguments)
        | none => assignmentFormAt? code

theorem callAt?_eq (word : String) (code : List Char) :
    callAt? word code = some (call? word code) := by
  simp only [callAt?, behindAt?_eq, trimStartAt?_eq, Option.bind_eq_bind, Option.bind_some, call?]
  cases word.toList.isPrefixOf? code <;> rfl

theorem assignmentFormAt?_eq (code : List Char) :
    assignmentFormAt? code = some (assignmentForm code) := by
  unfold assignmentFormAt? assignmentForm
  cases hdrop : code.dropWhile (· != '=') with
  | nil => rfl
  | cons c right =>
      have hsize : '='.utf8Size = 1 := rfl
      have hcode := eq_append_of_dropWhile hdrop
      have hleft := upTo?_append (code.takeWhile (· != '=')) ('=' :: right)
      have hright := from?_append (code.takeWhile (· != '=') ++ ['=']) right
      rw [byteLength_append, byteLength_cons, byteLength_nil, Nat.add_zero, hsize,
        List.append_assoc, List.singleton_append] at hright
      rw [← hcode] at hleft hright
      simp only [hleft, hright, trimAt?_eq, Option.bind_eq_bind, Option.bind_some]
      split
      · rfl
      split
      · rfl
      split
      · rfl
      · rfl

theorem formAt?_eq (raw : List Char) : formAt? raw = some (form raw) := by
  simp only [formAt?, trimAt?_eq, codeAt?_eq, callAt?_eq, assignmentFormAt?_eq, Option.bind_eq_bind,
    Option.bind_some, form]
  split
  · rfl
  cases call? "indicator" (code (trim raw)) with
  | some arguments => rfl
  | none => cases call? "plot" (code (trim raw)) <;> rfl

/-! ### Meaning -/

/-- The title in the arguments of a declaration. -/
def declaredTitleAt? (arguments : List Char) : Option (Option String) := do
  match ← Arguments.enclosedAt? arguments 0 with
  | .error _ => some none
  | .ok (inner, _) =>
      match Arguments.split inner with
      | [] => some none
      | first :: _ =>
          match Arguments.named? first with
          | none => some (title? first)
          | some (key, value) => some (if key == "title".toList then title? value else none)

/-- The sorted arguments of a plot. -/
def plotArgumentsAt? (arguments : List Char) : Option (Except PlotFault PlotArguments) := do
  match ← Arguments.enclosedAt? arguments 0 with
  | .error e => some (.error (.unclosed e.cause))
  | .ok (inner, after) =>
      let surplus ← trimAt? after
      if surplus.isEmpty then some (.ok (.ofList (Arguments.split inner)))
      else some (.error (.surplusText (String.ofList surplus)))

/-- The plot statement of a line. -/
def plotStatementAt? (code arguments : List Char) : Option (Except PlotFault PlotStatement) :=
  (plotArgumentsAt? arguments).map fun sorted => sorted.bind (·.statement code)

/-- What a line of a given form means, if anything. -/
def meaningAt? (number : Nat) : Form → Option (Except ScriptFault (Option Line))
  | .blank => some (.ok none)
  | .declaration arguments => do
      some (.ok (some (.declaration (← declaredTitleAt? arguments))))
  | .plot code arguments => do
      match ← plotStatementAt? code arguments with
      | .ok plot => some (.ok (some (.statement ⟨number, .plot plot⟩)))
      | .error fault => some (.error (.malformedPlot fault))
  | .assignment target expression => do
      match ← Expression.parseAt? expression with
      | .ok expression =>
          some (.ok (some (.statement ⟨number, .assign (String.ofList target) expression⟩)))
      | .error fault => some (.error fault)
  | .invalidTarget target => some (.error (.invalidTarget (String.ofList target)))
  | .unrecognised _ => some (.ok none)

/-- Read one line by offsets. -/
def parseAt? (number : Nat) (raw : List Char) : Option (Except ScriptError (Option Line)) := do
  match ← meaningAt? number (← formAt? raw) with
  | .ok line => some (.ok line)
  | .error fault => some (.error ⟨number, fault⟩)

theorem declaredTitleAt?_eq (arguments : List Char) :
    declaredTitleAt? arguments = some (declaredTitle? arguments) := by
  simp only [declaredTitleAt?, Arguments.enclosedAt?_zero, Option.bind_eq_bind, Option.bind_some,
    declaredTitle?]
  cases Arguments.enclosed 0 arguments with
  | error e => rfl
  | ok found =>
      simp only
      cases Arguments.split found.1 with
      | nil => rfl
      | cons first others => cases hnamed : Arguments.named? first <;> simp only [hnamed]

theorem plotArgumentsAt?_eq (arguments : List Char) :
    plotArgumentsAt? arguments = some (plotArguments arguments) := by
  simp only [plotArgumentsAt?, Arguments.enclosedAt?_zero, trimAt?_eq, Option.bind_eq_bind,
    Option.bind_some, plotArguments]
  cases Arguments.enclosed 0 arguments with
  | error e => rfl
  | ok found =>
      simp only
      split <;> rfl

theorem plotStatementAt?_eq (code arguments : List Char) :
    plotStatementAt? code arguments = some (plotStatement code arguments) := by
  rw [plotStatementAt?, plotArgumentsAt?_eq]
  rfl

theorem meaningAt?_eq (number : Nat) (f : Form) :
    meaningAt? number f = some (meaning number f) := by
  cases f with
  | declaration arguments =>
      simp only [meaningAt?, declaredTitleAt?_eq, meaning, Option.bind_eq_bind, Option.bind_some]
  | plot code arguments =>
      simp only [meaningAt?, plotStatementAt?_eq, meaning, Option.bind_eq_bind, Option.bind_some]
      cases plotStatement code arguments <;> rfl
  | assignment target expression =>
      simp only [meaningAt?, Expression.parseAt?_eq, meaning, Option.bind_eq_bind, Option.bind_some]
      cases Expression.parse expression <;> rfl
  | blank | invalidTarget | unrecognised => rfl

/-- **A line that is read by offsets is read.** -/
theorem parseAt?_eq (number : Nat) (raw : List Char) :
    parseAt? number raw = some (parse number raw) := by
  simp only [parseAt?, formAt?_eq, meaningAt?_eq, parse, Option.bind_eq_bind, Option.bind_some]
  cases meaning number (form raw) <;> rfl

end Line

namespace Script

/-- Read a numbered line by offsets, unless it means nothing. -/
def readLineAt? (line : Nat × List Char) : Option (Option (Except ScriptError Line)) := do
  match ← Line.parseAt? line.1 line.2 with
  | .ok none => some none
  | .ok (some line) => some (some (.ok line))
  | .error e => some (some (.error e))

/-- Read a script as a whole, each of its lines by offsets. -/
def parseAt? (cs : List Char) : Option (Except ScriptError Script) := do
  let read ← (numbered cs).mapM readLineAt?
  some (collect ⟨none, []⟩ (read.filterMap id))

theorem readLineAt?_eq (line : Nat × List Char) : readLineAt? line = some (readLine? line) := by
  simp only [readLineAt?, Line.parseAt?_eq, readLine?, Option.bind_eq_bind, Option.bind_some]
  cases Line.parse line.1 line.2 with
  | error e => rfl
  | ok meant => cases meant <;> rfl

theorem parseAt?_eq (cs : List Char) : parseAt? cs = some (parse cs) := by
  have hread : readLineAt? = fun line => some (readLine? line) := funext readLineAt?_eq
  have hlines : (numbered cs).mapM readLineAt? = some ((numbered cs).map readLine?) := by
    rw [hread]
    exact List.mapM_pure
  simp only [parseAt?, hlines, Option.bind_eq_bind, Option.bind_some, parse, readLines,
    List.filterMap_map]
  rfl

end Script

/-! ### Where errors point -/

/-- An error points into a text: its position is in the text, and at a boundary of it. -/
structure ParseError.PointsInto (error : ParseError) (cs : List Char) : Prop where
  le : error.position ≤ byteLength cs
  isBoundary : IsBoundary cs error.position

/-- The error that a statement keeps points into the text that does not parse. -/
def Statement.PointsIntoText (s : Statement) : Prop :=
  ∀ target text error, s.action = .assign target (.invalid text error) →
    error.PointsInto text.toList

/-- The error of a malformed call points into the call. -/
def ScriptFault.PointsIntoText (fault : ScriptFault) : Prop :=
  ∀ call error, fault = .malformedCall call error → error.PointsInto call.toList

namespace ParseError

variable {error : ParseError} {cs front rest : List Char}

theorem pointsInto_of_append (happend : cs = front ++ rest)
    (hposition : error.position = byteLength front) : error.PointsInto cs := by
  have hboundary : IsBoundary cs error.position :=
    isBoundary_iff.mpr ⟨front, rest, happend, hposition.symm⟩
  exact ⟨hboundary.le, hboundary⟩

theorem pointsInto_of_all (h : Token.all cs = .error error) : error.PointsInto cs := by
  obtain ⟨front, c, rest, ls, happend, hposition, -⟩ := Token.stops_of_allFrom h
  rw [Nat.zero_add] at hposition
  exact pointsInto_of_append happend hposition

theorem pointsInto_of_arithmetic (h : Arithmetic.parse cs = .error error) :
    error.PointsInto cs := by
  obtain ⟨front, rest, happend, hbehind, -⟩ := Arithmetic.exists_isBehind_of_parse h
  exact pointsInto_of_append happend hbehind.position

theorem pointsInto_of_enclosed {tail : List Char}
    (h : Arguments.enclosed (byteLength front) tail = .error error) :
    error.PointsInto (front ++ tail) := by
  obtain ⟨more, rest, rfl, hposition, -⟩ := Arguments.exists_isBehind_of_enclosed h
  rw [← byteLength_append] at hposition
  exact pointsInto_of_append (List.append_assoc _ _ _).symm hposition

theorem pointsInto_of_readCall? {call : String}
    (h : Indicator.readCall? cs = some (.error (.malformedCall call error))) :
    call.toList = cs ∧ error.PointsInto cs := by
  obtain ⟨hcall, front, rest, happend, hbehind⟩ := Indicator.exists_isBehind_of_readCall? h
  exact ⟨hcall, pointsInto_of_append happend hbehind.position⟩

end ParseError

namespace Line

theorem pointsIntoText_of_parse_eq_ok {number : Nat} {raw : List Char} {s : Statement}
    (h : parse number raw = .ok (some (.statement s))) : s.PointsIntoText := by
  intro target text error hs
  obtain ⟨written, right, -, -, hparse⟩ := exists_form_of_parse_eq_statement h hs
  obtain ⟨front, rest, happend, hbehind, -⟩ := Expression.exists_isBehind_of_invalid hparse
  exact ParseError.pointsInto_of_append happend hbehind.position

theorem pointsIntoText_of_parse_eq_error {number : Nat} {raw : List Char} {e : ScriptError}
    (h : parse number raw = .error e) : e.fault.PointsIntoText := by
  intro call error he
  obtain ⟨written, right, -, hparse⟩ := exists_form_of_malformedCall h he
  obtain ⟨front, rest, happend, hbehind⟩ := Expression.exists_isBehind_of_malformedCall hparse
  exact ParseError.pointsInto_of_append happend hbehind.position

end Line

namespace Script

/-- What a script is read as is read from its lines. -/
theorem exists_parse_of_mem_readLines {cs : List Char} {item : Except ScriptError Line}
    (h : item ∈ readLines cs) :
    ∃ number raw, Line.parse number raw = item.map some := by
  obtain ⟨⟨number, raw⟩, -, hread⟩ := List.mem_filterMap.mp h
  refine ⟨number, raw, ?_⟩
  unfold readLine? at hread
  split at hread
  · cases hread
  · rename_i hparse
    cases hread
    exact hparse
  · rename_i hparse
    cases hread
    exact hparse

theorem pointsIntoText_of_parse_eq_ok {cs : List Char} {script : Script}
    (h : parse cs = .ok script) : ∀ s ∈ script.statements, s.PointsIntoText := by
  intro s hs
  rw [(collect_eq_ok h).2, List.nil_append] at hs
  obtain ⟨item, hmem, hitem⟩ := List.mem_filterMap.mp hs
  obtain ⟨number, raw, hparse⟩ := exists_parse_of_mem_readLines hmem
  unfold statement? at hitem
  split at hitem
  · cases hitem
  · cases hitem
    exact Line.pointsIntoText_of_parse_eq_ok hparse
  · cases hitem

theorem pointsIntoText_of_parse_eq_error {cs : List Char} {e : ScriptError}
    (h : parse cs = .error e) : e.fault.PointsIntoText := by
  obtain ⟨before, after, hlines, -⟩ := collect_eq_error h
  have hmem : .error e ∈ readLines cs := by
    rw [hlines]
    exact List.mem_append_right before List.mem_cons_self
  obtain ⟨number, raw, hparse⟩ := exists_parse_of_mem_readLines hmem
  exact Line.pointsIntoText_of_parse_eq_error hparse

/-! ### All of it -/

/-- The cuts of a text succeed exactly at its boundaries. -/
structure CutsAtBoundaries (cs : List Char) : Prop where
  start {start : Nat} : (from? cs start).isSome = true ↔ IsBoundary cs start
  stop {stop : Nat} : (upTo? cs stop).isSome = true ↔ IsBoundary cs stop
  both {start stop : Nat} : (slice? cs start stop).isSome = true ↔
    IsBoundary cs start ∧ IsBoundary cs stop ∧ start ≤ stop

/-- No reader of a text makes a cut that fails, or counts an offset below zero: by offsets it finds
what it finds in the text.  An argument list is looked for at any boundary. -/
structure ReadsByOffsets (cs : List Char) : Prop where
  tokens : Token.allAt? cs 0 = some (Token.all cs)
  arithmetic : Arithmetic.parseAt? cs = some (Arithmetic.parse cs)
  enclosed : ∀ front tail, cs = front ++ tail →
    Arguments.enclosedAt? cs (byteLength front) = some (Arguments.enclosed (byteLength front) tail)
  arguments : ∀ kind name rest, cs = name ++ rest →
    Indicator.readArgumentsAt? kind cs (byteLength name) =
      some (Indicator.readArguments kind name rest)
  call : Indicator.readCallAt? cs = some (Indicator.readCall? cs)
  comment : Line.withoutCommentAt? cs = some (withoutComment cs)
  listed : ∀ word, Line.callAt? word cs = some (Line.call? word cs)
  line : ∀ number, Line.parseAt? number cs = some (Line.parse number cs)
  script : parseAt? cs = some (parse cs)

/-- Each error in a text points into the text that it is about. -/
structure ErrorsPointInto (cs : List Char) : Prop where
  tokens : ∀ error, Token.all cs = .error error → error.PointsInto cs
  arithmetic : ∀ error, Arithmetic.parse cs = .error error → error.PointsInto cs
  enclosed : ∀ front tail error, cs = front ++ tail →
    Arguments.enclosed (byteLength front) tail = .error error → error.PointsInto cs
  call : ∀ call error, Indicator.readCall? cs = some (.error (.malformedCall call error)) →
    call.toList = cs ∧ error.PointsInto cs
  statement : ∀ number s, Line.parse number cs = .ok (some (.statement s)) → s.PointsIntoText
  fault : ∀ number e, Line.parse number cs = .error e → e.fault.PointsIntoText

theorem cutsAtBoundaries (cs : List Char) : CutsAtBoundaries cs :=
  ⟨isSome_from?_iff, isSome_upTo?_iff, isSome_slice?_iff⟩

theorem readsByOffsets (cs : List Char) : ReadsByOffsets cs where
  tokens := Token.allAt?_zero cs
  arithmetic := Arithmetic.parseAt?_eq cs
  enclosed front tail h := h ▸ Arguments.enclosedAt?_append front tail
  arguments kind name rest h := h ▸ Indicator.readArgumentsAt?_append kind name rest
  call := Indicator.readCallAt?_eq cs
  comment := Line.withoutCommentAt?_eq cs
  listed word := Line.callAt?_eq word cs
  line number := Line.parseAt?_eq number cs
  script := parseAt?_eq cs

theorem errorsPointInto (cs : List Char) : ErrorsPointInto cs where
  tokens _ h := ParseError.pointsInto_of_all h
  arithmetic _ h := ParseError.pointsInto_of_arithmetic h
  enclosed _ _ _ hcs h := hcs ▸ ParseError.pointsInto_of_enclosed h
  call _ _ h := ParseError.pointsInto_of_readCall? h
  statement _ _ h := Line.pointsIntoText_of_parse_eq_ok h
  fault _ _ h := Line.pointsIntoText_of_parse_eq_error h

/-- **No text is ever cut inside a character or out of range.**  Its cuts succeed at its boundaries
only, and no reader of it makes another one, so every text is read: as a script or as an error.
Every error points into the text it is about, and so does each one that is kept or returned. -/
theorem reading_cuts_at_boundaries (cs : List Char) :
    CutsAtBoundaries cs ∧ ReadsByOffsets cs ∧ ErrorsPointInto cs ∧
      ((∃ script, parseAt? cs = some (.ok script) ∧ ∀ s ∈ script.statements, s.PointsIntoText) ∨
        ∃ e, parseAt? cs = some (.error e) ∧ e.fault.PointsIntoText) := by
  refine ⟨cutsAtBoundaries cs, readsByOffsets cs, errorsPointInto cs, ?_⟩
  rw [parseAt?_eq]
  cases hparse : parse cs with
  | ok script => exact Or.inl ⟨script, rfl, pointsIntoText_of_parse_eq_ok hparse⟩
  | error e => exact Or.inr ⟨e, rfl, pointsIntoText_of_parse_eq_error hparse⟩

/-- A call that ends in a character of two bytes: its error points behind the character, and one
byte to the left of that no cut can be made. -/
theorem reading_behind_an_accent :
    let call := "ta.sma(é"
    let error : ParseError := ⟨.expectedClose none, 9⟩
    parseAt? "x = ta.sma(é".toList = some (.error ⟨1, .malformedCall call error⟩) ∧
      error.PointsInto call.toList ∧
      from? call.toList 9 = some [] ∧ from? call.toList 8 = none := by
  intro call error
  obtain ⟨-, hreads, -, -⟩ := reading_cuts_at_boundaries "x = ta.sma(é".toList
  obtain ⟨-, -, herrors, -⟩ := reading_cuts_at_boundaries call.toList
  have hscript : parse "x = ta.sma(é".toList = .error ⟨1, .malformedCall call error⟩ := by
    decide +kernel
  have hcall : Indicator.readCall? call.toList = some (.error (.malformedCall call error)) := by
    decide +kernel
  exact ⟨by rw [hreads.script, hscript], (herrors.call call error hcall).2, by decide +kernel,
    by decide +kernel⟩

end Script

end ChartScript
