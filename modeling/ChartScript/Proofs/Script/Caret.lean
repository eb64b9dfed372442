/-
The caret below a parse error.

An error is placed behind the text in front of it, which is measured in bytes: there stands what
its cause names, or the text ends.  The caret is indented by as many blanks as that.  It is below
the place of the error if all characters in front take one byte.  In arithmetic they do, since an
error is found at the first character that starts no lexeme; in a call they need not.
-/
import ChartScript.Command.Basic
import ChartScript.Proofs.Arguments.Cutting
import ChartScript.Proofs.Arithmetic.Offence
import ChartScript.Proofs.Arithmetic.Offset
import ChartScript.Proofs.Script.Assignment

namespace ChartScript

open Text

/-! ### Characters of one byte -/

theorem Text.length_le_byteLength (cs : List Char) : cs.length ≤ byteLength cs := by
  induction cs with
  | nil => exact Nat.le_refl 0
  | cons c cs ih =>
      have hpos : 0 < c.utf8Size := c.utf8Size_pos
      rw [byteLength_cons, List.length_cons]
      omega

/-- A text takes as many bytes as it has characters exactly if each character takes one. -/
theorem Text.byteLength_eq_length_iff {cs : List Char} :
    byteLength cs = cs.length ↔ ∀ c ∈ cs, c.utf8Size = 1 := by
  induction cs with
  | nil => simp
  | cons c cs ih =>
      have hle : cs.length ≤ byteLength cs := length_le_byteLength cs
      have hpos : 0 < c.utf8Size := c.utf8Size_pos
      rw [byteLength_cons, List.length_cons, List.forall_mem_cons, ← ih]
      omega

/-! ### Errors in context -/

namespace ParseError

/-- An error below a text, with the caret in some column. -/
def inColumn (error : ParseError) (text : String) (column : Nat) : String :=
  text ++ "\n" ++ (String.ofList (List.replicate column ' ') ++ "^") ++ "\n" ++ error.display

theorem context_eq (error : ParseError) (text : String) :
    error.context text = error.inColumn text error.position :=
  rfl

theorem inColumn_inj {error : ParseError} {text : String} {m n : Nat} :
    error.inColumn text m = error.inColumn text n ↔ m = n := by
  refine ⟨fun h => ?_, fun h => by rw [h]⟩
  have hlength := congrArg String.length h
  simp only [inColumn, String.length_append, String.length_ofList, List.length_replicate] at hlength
  omega

/-- What a cause names is at the front of a text. -/
def Cause.StandsAt (rest : List Char) : Cause → Prop
  | .unexpectedCharacter c => rest.head? = some c
  | .malformedNumber text => text.toList <+: rest
  | .expectedOperand (some l) | .expectedClose (some l) | .surplusLexeme l =>
      ∃ word, Spells word l ∧ word <+: rest
  | .expectedOpen (some c) => rest.head? = some c
  | .surplusText text => rest ≠ [] ∧ trimEnd rest = text.toList
  | .expectedOperand none | .expectedClose none | .expectedOpen none => rest = []

/-- An error is behind `front` in a text, where `rest` comes next. -/
structure IsBehind (error : ParseError) (front rest : List Char) : Prop where
  position : error.position = byteLength front
  cause : error.cause.StandsAt rest

/-- The caret is below the place of an error if every character in front takes one byte. -/
theorem IsBehind.context_eq_inColumn_iff {error : ParseError} {front rest : List Char}
    (h : error.IsBehind front rest) (text : String) :
    error.context text = error.inColumn text front.length ↔ ∀ c ∈ front, c.utf8Size = 1 := by
  rw [context_eq, inColumn_inj, h.position, byteLength_eq_length_iff]

end ParseError

/-! ### Arithmetic -/

theorem StartsLexeme.utf8Size_eq_one {c : Char} (h : StartsLexeme c) : c.utf8Size = 1 := by
  rcases (startsLexeme_iff c).mp h with hsymbol | hstart | hnumeral
  · exact Text.utf8Size_eq_one_of_lt (Token.toNat_lt_of_isSymbol hsymbol)
  · exact Token.isAscii_isIdentifierStart.utf8Size_eq_one hstart
  · exact Token.isAscii_isNumeral.utf8Size_eq_one hnumeral

/-- What is cut into lexemes takes one byte for each character. -/
theorem Munches.utf8Size_eq_one {cs : List Char} {ls : List Lexeme} (h : Munches cs ls) :
    ∀ c ∈ cs, c.utf8Size = 1 := by
  intro c hc
  rcases h.separator_or_startsLexeme c hc with hsep | hstarts
  · exact Token.utf8Size_of_isSeparator hsep
  · exact hstarts.utf8Size_eq_one

theorem Token.standsAt_of_scan {c : Char} {cs : List Char} {cause : ParseError.Cause}
    (h : scan c cs = .error cause) : cause.StandsAt (c :: cs) := by
  unfold scan at h
  split at h
  · cases h
  split at h
  · cases h
  split at h
  · cases h
  split at h
  · simp only at h
    split at h
    · cases h
    · cases h
      show (String.ofList (scanNumber (c :: cs)).1).toList <+: c :: cs
      rw [String.toList_ofList]
      exact ⟨_, scanNumber_append (c :: cs)⟩
  split at h
  · cases h
  · cases h
    rfl

namespace Arithmetic

namespace Progress

theorem misplaced_eq (outer : List Level) (l : Lexeme) :
    misplaced outer l = .expectedClose (some l) ∨ misplaced outer l = .surplusLexeme l := by
  unfold misplaced
  split
  · exact Or.inr rfl
  · exact Or.inl rfl

/-- The reader names the lexeme that it refuses. -/
theorem cause_of_read {progress : Progress} {l : Lexeme} {cause : ParseError.Cause}
    (h : progress.read l = .error cause) :
    cause = .expectedOperand (some l) ∨ cause = .expectedClose (some l) ∨
      cause = .surplusLexeme l := by
  cases progress with
  | operand level outer =>
      cases l with
      | number | identifier | openParen => cases h
      | closeParen =>
          cases h
          exact Or.inl rfl
      | operator operation => cases operation <;> cases h <;> exact Or.inl rfl
  | operator e level outer =>
      cases l with
      | number | identifier | openParen =>
          cases h
          exact Or.inr (misplaced_eq outer _)
      | closeParen =>
          cases outer with
          | nil =>
              cases h
              exact Or.inr (Or.inr rfl)
          | cons => cases h
      | operator operation => cases operation <;> cases h

theorem standsAt_of_read {progress : Progress} {l : Lexeme} {cause : ParseError.Cause}
    (h : progress.read l = .error cause) {word rest : List Char} (hword : Spells word l)
    (hrest : word <+: rest) : cause.StandsAt rest := by
  rcases cause_of_read h with rfl | rfl | rfl <;> exact ⟨word, hword, hrest⟩

theorem standsAt_of_finish {progress : Progress} {cause : ParseError.Cause}
    (h : progress.finish = .error cause) : cause.StandsAt [] := by
  cases progress with
  | operand level outer =>
      cases h
      rfl
  | operator e level outer =>
      cases outer with
      | nil => cases h
      | cons below others =>
          cases h
          rfl

end Progress

/-- An error in arithmetic is behind characters of one byte each. -/
theorem exists_isBehind_of_parse {cs : List Char} {error : ParseError}
    (h : parse cs = .error error) :
    ∃ front rest, cs = front ++ rest ∧ error.IsBehind front rest ∧
      ∀ c ∈ front, c.utf8Size = 1 := by
  rw [parse] at h
  cases hall : Token.all cs with
  | error stop =>
      rw [hall] at h
      cases h
      obtain ⟨front, c, rest, ls, happend, hposition, hcut, -, hscan⟩ := Token.stops_of_allFrom hall
      rw [Nat.zero_add] at hposition
      exact ⟨front, c :: rest, happend, ⟨hposition, Token.standsAt_of_scan hscan⟩,
        hcut.munches.utf8Size_eq_one⟩
  | ok tokens =>
      rw [hall] at h
      simp only [ofTokens] at h
      cases hread : Progress.start.readAll tokens with
      | error refusal =>
          rw [hread] at h
          cases h
          obtain ⟨before, token, after, reached, rfl, hposition, -, hrefused⟩ :=
            Progress.refused_of_readAll hread
          obtain ⟨front, rest, happend, hplace, hcut, -, hspells⟩ :=
            Token.exists_front_of_allFrom hall
          rw [hplace, Nat.zero_add] at hposition
          exact ⟨front, token.source ++ rest, happend,
            ⟨hposition, Progress.standsAt_of_read hrefused hspells (List.prefix_append _ _)⟩,
            hcut.munches.utf8Size_eq_one⟩
      | ok progress =>
          rw [hread] at h
          cases hfinish : progress.finish with
          | ok e =>
              simp only [hfinish] at h
              cases h
          | error cause =>
              simp only [hfinish] at h
              cases h
              have hmunches : Munches cs (tokens.map Token.lexeme) :=
                (Token.all_eq_ok_iff cs _).mp ⟨tokens, hall, rfl⟩
              exact ⟨cs, [], (List.append_nil cs).symm, ⟨rfl, Progress.standsAt_of_finish hfinish⟩,
                hmunches.utf8Size_eq_one⟩

end Arithmetic

/-! ### Calls -/

theorem Arguments.exists_isBehind_of_enclosed {start : Nat} {cs : List Char} {error : ParseError}
    (h : enclosed start cs = .error error) :
    ∃ front rest, cs = front ++ rest ∧ error.position = start + byteLength front ∧
      error.cause.StandsAt rest := by
  cases cs with
  | nil =>
      cases h
      exact ⟨[], [], rfl, rfl, rfl⟩
  | cons c cs =>
      rw [enclosed] at h
      split at h
      · split at h
        · cases h
        · cases h
          exact ⟨c :: cs, [], (List.append_nil _).symm, rfl, rfl⟩
      · cases h
        exact ⟨[], c :: cs, rfl, rfl, rfl⟩

/-- A malformed call is kept as it is written, and its error is behind some of that. -/
theorem Indicator.exists_isBehind_of_readArguments {kind : Kind} {name rest : List Char}
    {call : String} {error : ParseError}
    (h : readArguments kind name rest = .error (.malformedCall call error)) :
    call.toList = name ++ rest ∧
      ∃ front back, name ++ rest = front ++ back ∧ error.IsBehind front back := by
  have htext : name ++ rest.takeWhile isBlank ++ trimStart rest = name ++ rest := by
    rw [List.append_assoc, trimStart, List.takeWhile_append_dropWhile]
  simp only [readArguments] at h
  split at h
  · rename_i stop hstop
    cases h
    obtain ⟨front, back, happend, hposition, hcause⟩ :=
      Arguments.exists_isBehind_of_enclosed hstop
    refine ⟨String.toList_ofList, name ++ rest.takeWhile isBlank ++ front, back, ?_, ?_, hcause⟩
    · rw [← htext, happend, ← List.append_assoc]
    · rw [hposition, ← byteLength_append]
  · rename_i inner after hfound
    split at h
    · split at h <;> cases h
    · rename_i hsurplus
      cases h
      obtain ⟨blanks, -, hblanks⟩ := exists_blanks_trimStart after
      have hwhole : name ++ rest = name ++ rest.takeWhile isBlank ++
          '(' :: (inner ++ ')' :: blanks) ++ trimStart after := by
        rw [← htext, Arguments.eq_append_of_enclosed hfound]
        simp [hblanks]
      refine ⟨String.toList_ofList, _, trimStart after, hwhole, ?_, ?_, ?_⟩
      · rw [hwhole, byteLength_append _ (trimStart after), Nat.add_sub_cancel]
      · intro hempty
        exact hsurplus (by rw [trim, hempty]; rfl)
      · rw [String.toList_ofList, trim]

theorem Indicator.exists_isBehind_of_readCall? {cs : List Char} {call : String}
    {error : ParseError} (h : readCall? cs = some (.error (.malformedCall call error))) :
    call.toList = cs ∧ ∃ front back, cs = front ++ back ∧ error.IsBehind front back := by
  unfold readCall? at h
  split at h
  · cases h
  · rename_i rest hmark
    simp only at h
    split at h
    · cases h
    · have hbehind := exists_isBehind_of_readArguments (Option.some.inj h)
      rwa [List.append_assoc, List.takeWhile_append_dropWhile,
        List.isPrefixOf?_eq_some_iff_append_eq.mp hmark] at hbehind

/-! ### Lines -/

/-- Arithmetic that does not parse is kept with the place of its error. -/
theorem Expression.exists_isBehind_of_invalid {cs : List Char} {text : String} {error : ParseError}
    (h : parse cs = .ok (.invalid text error)) :
    ∃ front rest, text.toList = front ++ rest ∧ error.IsBehind front rest ∧
      ∀ c ∈ front, c.utf8Size = 1 := by
  simp only [parse] at h
  split at h
  · cases h
  · cases h
  · split at h
    · cases h
    · rename_i stop hstop
      cases h
      rw [String.toList_ofList]
      exact Arithmetic.exists_isBehind_of_parse hstop

theorem Expression.exists_isBehind_of_malformedCall {cs : List Char} {call : String}
    {error : ParseError} (h : parse cs = .error (.malformedCall call error)) :
    ∃ front rest, call.toList = front ++ rest ∧ error.IsBehind front rest := by
  simp only [parse] at h
  split at h
  · cases h
  · rename_i fault hfault
    cases h
    obtain ⟨hcall, hbehind⟩ := Indicator.exists_isBehind_of_readCall? hfault
    rwa [hcall]
  · split at h <;> cases h

namespace Line

/-- **The caret counts bytes.**  It is below the place of every error in arithmetic.  Below a
malformed call it is indented by a blank for each byte in front of the error, and so is below its
place exactly if every character there takes one byte. -/
theorem caret_counts_bytes (number : Nat) (raw : List Char) :
    (∀ target text error,
      parse number raw =
        .ok (some (.statement ⟨number, .assign target (.invalid text error)⟩)) →
      ∃ front rest, text.toList = front ++ rest ∧ error.IsBehind front rest ∧
        Command.warning ⟨number, .assign target (.invalid text error)⟩ =
          s!"warning: line {number}: series is undefined\n" ++
            error.inColumn text front.length ++ "\n") ∧
    (∀ call error, parse number raw = .error ⟨number, .malformedCall call error⟩ →
      let report := ScriptError.report ⟨number, .malformedCall call error⟩
      ∃ front rest, call.toList = front ++ rest ∧ error.IsBehind front rest ∧
        report = s!"line {number}:\n" ++ error.inColumn call (byteLength front) ∧
        (report = s!"line {number}:\n" ++ error.inColumn call front.length ↔
          ∀ c ∈ front, c.utf8Size = 1)) := by
  refine ⟨?_, ?_⟩
  · intro target text error h
    obtain ⟨written, right, -, -, hparse⟩ := exists_form_of_parse_eq_statement h rfl
    obtain ⟨front, rest, happend, hbehind, hone⟩ := Expression.exists_isBehind_of_invalid hparse
    refine ⟨front, rest, happend, hbehind, ?_⟩
    rw [← (hbehind.context_eq_inColumn_iff text).mpr hone]
    rfl
  · intro call error h report
    obtain ⟨written, right, -, hparse⟩ := exists_form_of_malformedCall h rfl
    obtain ⟨front, rest, happend, hbehind⟩ := Expression.exists_isBehind_of_malformedCall hparse
    have hreport : report = s!"line {number}:\n" ++ error.context call := rfl
    refine ⟨front, rest, happend, hbehind, ?_, ?_⟩
    · rw [hreport, ParseError.context_eq, hbehind.position]
    · rw [hreport, String.append_right_inj, hbehind.context_eq_inColumn_iff]

/-- An arithmetic error in front of a character of two bytes, and the same character behind a
call. -/
theorem carets_in_front_of_accents :
    let character : ParseError := ⟨.unexpectedCharacter 'é', 5⟩
    let surplus : ParseError := ⟨.surplusText "é", 17⟩
    (∃ front rest, "(1 + é".toList = front ++ rest ∧ character.IsBehind front rest ∧
      Command.warning ⟨1, .assign "x" (.invalid "(1 + é" character)⟩ =
        "warning: line 1: series is undefined\n" ++
          character.inColumn "(1 + é" front.length ++ "\n") ∧
    (∃ front rest, "ta.sma(close, 3) é".toList = front ++ rest ∧ surplus.IsBehind front rest ∧
      ScriptError.report ⟨2, .malformedCall "ta.sma(close, 3) é" surplus⟩ =
        "line 2:\n" ++ surplus.inColumn "ta.sma(close, 3) é" (byteLength front)) := by
  intro character surplus
  have hcharacter : parse 1 "x = (1 + é".toList =
      .ok (some (.statement ⟨1, .assign "x" (.invalid "(1 + é" character)⟩)) := by
    decide +kernel
  have hsurplus : parse 2 "y = ta.sma(close, 3) é".toList =
      .error ⟨2, .malformedCall "ta.sma(close, 3) é" surplus⟩ := by
    decide +kernel
  obtain ⟨front, rest, happend, hbehind, hreport, -⟩ :=
    (caret_counts_bytes 2 "y = ta.sma(close, 3) é".toList).2 _ _ hsurplus
  exact ⟨(caret_counts_bytes 1 "x = (1 + é".toList).1 _ _ _ hcharacter,
    front, rest, happend, hbehind, hreport⟩

/-- Behind a character of two bytes the caret is one column too far to the right. -/
theorem caret_behind_an_accent :
    let call := "ta.sma(é"
    let error : ParseError := ⟨.expectedClose none, 9⟩
    parse 1 "x = ta.sma(é".toList = .error ⟨1, .malformedCall call error⟩ ∧
      error.IsBehind call.toList [] ∧ call.toList.length = 8 ∧
      ScriptError.report ⟨1, .malformedCall call error⟩ = "line 1:\n" ++ error.inColumn call 9 ∧
      ScriptError.report ⟨1, .malformedCall call error⟩ ≠ "line 1:\n" ++ error.inColumn call 8 := by
  intro call error
  have hreport : ScriptError.report ⟨1, .malformedCall call error⟩ =
      "line 1:\n" ++ error.inColumn call 9 := by
    decide +kernel
  have hlength : call.toList.length = 8 := by decide
  refine ⟨by decide +kernel, ⟨by decide, rfl⟩, hlength, hreport, ?_⟩
  rw [hreport, Ne, String.append_right_inj, ParseError.inColumn_inj]
  decide

end Line

end ChartScript
