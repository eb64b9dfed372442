/-
Where an arithmetic error points.

A text that is not cut into tokens has a first place where the cut stops: everything in front of
it is cut into longest words that spell lexemes, and there stands a character that starts no
lexeme, or a number that is none.  The words in front are longest ones of the whole text, and so
of what is in front alone.

A text that is cut into tokens but is no expression has a first token, or the end, behind which no
expression could have gone on.  The reader refuses a token exactly there.  What it has read up to
the token begins some expression: an operand, where one has to come next, and the parentheses that
are still open make it whole.  What it refuses is read behind no continuation either, so nothing
that begins so is derived by the grammar.
-/
import ChartScript.Proofs.Arithmetic.Grammar
import ChartScript.Proofs.Arithmetic.Munch

namespace ChartScript

open Text

namespace Arithmetic

/-! ### Beginnings of expressions -/

/-- Some expression begins with these lexemes. -/
def Begins (ls : List Lexeme) : Prop :=
  ∃ more e, Derives .sum (ls ++ more) e

namespace Progress

/-- Behind a complete operand, closing what is open makes an expression. -/
theorem exists_closing (e : Arithmetic) (level : Level) (outer : List Level) :
    ∃ final whole, (operator e level outer).after?
      (List.replicate outer.length .closeParen) = some final ∧ final.finish = .ok whole := by
  induction outer generalizing e level with
  | nil => exact ⟨_, _, rfl, rfl⟩
  | cons below others ih =>
      have hclose : (operator e level (below :: others)).read .closeParen =
          .ok (atom below others (level.closeSum e)) := rfl
      rw [List.length_cons, List.replicate_succ, after?_cons hclose]
      exact ih _ _

/-- From wherever the reader stands, some lexemes make an expression. -/
theorem exists_completion (progress : Progress) :
    ∃ more final whole, progress.after? more = some final ∧ final.finish = .ok whole := by
  cases progress with
  | operand level outer =>
      have hnumber : (operand level outer).read (.number 0) =
          .ok (atom level outer (.number 0)) := rfl
      obtain ⟨final, whole, hread, hfinish⟩ :=
        exists_closing (Level.negate level.signs (.number 0)) { level with signs := 0 } outer
      refine ⟨.number 0 :: List.replicate outer.length .closeParen, final, whole, ?_, hfinish⟩
      rw [after?_cons hnumber]
      exact hread
  | operator e level outer =>
      obtain ⟨final, whole, hread, hfinish⟩ := exists_closing e level outer
      exact ⟨_, final, whole, hread, hfinish⟩

end Progress

/-- **The reader reads what some expression begins with, and nothing else.** -/
theorem begins_iff (ls : List Lexeme) :
    Begins ls ↔ ∃ progress, Progress.start.after? ls = some progress := by
  constructor
  · rintro ⟨more, e, hderives⟩
    obtain ⟨final, hread, -⟩ := (finish_iff_derives _ e).mpr hderives
    rw [Progress.after?_append] at hread
    obtain ⟨progress, hprogress, -⟩ := Option.bind_eq_some_iff.mp hread
    exact ⟨progress, hprogress⟩
  · rintro ⟨progress, hprogress⟩
    obtain ⟨more, final, whole, hmore, hfinish⟩ := progress.exists_completion
    have hread : Progress.start.after? (ls ++ more) = some final := by
      rw [Progress.after?_append_of_eq hprogress, hmore]
    exact ⟨more, whole, (finish_iff_derives _ whole).mp ⟨final, hread, hfinish⟩⟩

/-! ### The token that is refused -/

namespace Progress

/-- An error of the reader is at the first token that it refuses. -/
theorem refused_of_readAll {progress : Progress} {tokens : List Token} {error : ParseError}
    (h : progress.readAll tokens = .error error) :
    ∃ before token after reached, tokens = before ++ token :: after ∧
      error.position = token.position ∧
      progress.after? (before.map Token.lexeme) = some reached ∧
      reached.read token.lexeme = .error error.cause := by
  induction tokens generalizing progress with
  | nil => cases h
  | cons token tokens ih =>
      rw [readAll, next_eq] at h
      cases hread : progress.read token.lexeme with
      | error cause =>
          rw [hread] at h
          cases h
          exact ⟨[], token, tokens, progress, rfl, rfl, rfl, hread⟩
      | ok next =>
          rw [hread] at h
          obtain ⟨before, refused, after, reached, rfl, hposition, hreached, hrefused⟩ := ih h
          refine ⟨token :: before, refused, after, reached, rfl, hposition, ?_, hrefused⟩
          rw [List.map_cons, after?_cons hread, hreached]

end Progress

/-- Tokens that make no expression: one of them is the first that no expression goes on with, or
all of them begin an expression and the error is at the end. -/
theorem refused_of_ofTokens {length : Nat} {tokens : List Token} {error : ParseError}
    (h : ofTokens length tokens = .error error) :
    (∃ before token after, tokens = before ++ token :: after ∧ error.position = token.position ∧
      Begins (before.map Token.lexeme) ∧ ¬Begins (before.map Token.lexeme ++ [token.lexeme])) ∨
    (error.position = length ∧ Begins (tokens.map Token.lexeme) ∧
      ∀ e, ¬Derives .sum (tokens.map Token.lexeme) e) := by
  have hnone : ∀ e, ¬Derives .sum (tokens.map Token.lexeme) e := by
    intro e hderives
    rw [(ofTokens_eq_ok_iff length tokens e).mpr hderives] at h
    cases h
  rw [ofTokens] at h
  cases hread : Progress.start.readAll tokens with
  | error refusal =>
      rw [hread] at h
      cases h
      obtain ⟨before, token, after, reached, htokens, hposition, hreached, hrefused⟩ :=
        Progress.refused_of_readAll hread
      refine Or.inl ⟨before, token, after, htokens, hposition, ?_, ?_⟩
      · exact (begins_iff _).mpr ⟨reached, hreached⟩
      · rw [begins_iff, Progress.after?_append_of_eq hreached, Progress.after?, hrefused]
        rintro ⟨progress, hprogress⟩
        cases hprogress
  | ok progress =>
      rw [hread] at h
      have hbegins : Begins (tokens.map Token.lexeme) :=
        (begins_iff _).mpr ⟨progress, (Progress.readAll_eq_ok_iff _ _ _).mp hread⟩
      cases hfinish : progress.finish with
      | ok e =>
          simp only [hfinish] at h
          cases h
      | error cause =>
          simp only [hfinish] at h
          cases h
          exact Or.inr ⟨rfl, hbegins, hnone⟩

end Arithmetic

/-! ### The front of a text -/

/-- A part of a text in front of `rest` is cut into the longest words of the text. -/
inductive MunchesBefore (rest : List Char) : List Char → List Lexeme → Prop where
  | nil : MunchesBefore rest [] []
  | separator {c : Char} {cs : List Char} {ls : List Lexeme} (h : Token.isSeparator c = true)
      (more : MunchesBefore rest cs ls) : MunchesBefore rest (c :: cs) ls
  | word {word cs : List Char} {l : Lexeme} {ls : List Lexeme}
      (longest : IsLongest word (word ++ (cs ++ rest))) (spelling : Spells word l)
      (more : MunchesBefore rest cs ls) : MunchesBefore rest (word ++ cs) (l :: ls)

/-- A longest word is the longest of any shorter text that it is in. -/
theorem IsLongest.of_append {word cs ds : List Char} (h : IsLongest word (word ++ (cs ++ ds))) :
    IsLongest word (word ++ cs) := by
  refine ⟨h.isWord, ⟨cs, rfl⟩, ?_⟩
  intro other hother hfront
  apply h.longest other hother
  rw [← List.append_assoc]
  exact hfront.trans (List.prefix_append _ ds)

/-- The front of a text is cut by itself as it is in the text. -/
theorem MunchesBefore.munches {rest cs : List Char} {ls : List Lexeme}
    (h : MunchesBefore rest cs ls) : Munches cs ls := by
  induction h with
  | nil => exact .nil
  | separator hsep _ ih => exact .separator hsep ih
  | word longest spelling _ ih => exact .word longest.of_append spelling ih

/-- Some lexeme is spelled with this character in front. -/
def StartsLexeme (c : Char) : Prop :=
  ∃ word l, Spells (c :: word) l

theorem startsLexeme_iff (c : Char) :
    StartsLexeme c ↔ IsSymbol c ∨ isIdentifierStart c = true ∨ Token.isNumeral c = true := by
  constructor
  · rintro ⟨word, l, hspells⟩
    rcases hspells.isWord.cases_front with ⟨hsymbol, -⟩ | ⟨hstart, -⟩ | ⟨hnumeral, -⟩
    · exact Or.inl hsymbol
    · exact Or.inr (Or.inl hstart)
    · exact Or.inr (Or.inr hnumeral)
  · rintro (hsymbol | hstart | hnumeral)
    · rcases hsymbol with rfl | rfl | ⟨operation, rfl⟩
      · exact ⟨[], _, .openParen⟩
      · exact ⟨[], _, .closeParen⟩
      · exact ⟨[], _, .operator operation⟩
    · exact ⟨[], _, .identifier (Bool.and_eq_true_iff.mpr ⟨hstart, rfl⟩)⟩
    · -- A point needs a digit behind it, and a digit does not mind one.
      have hnumber : IsNumber [c, '0'] [] := by
        refine ⟨List.cons_ne_nil _ _, ?_, .none⟩
        intro d hd
        rcases List.mem_cons.mp hd with rfl | hd
        · exact hnumeral
        · rw [List.mem_singleton.mp hd]
          rfl
      have hreadable : IsReadable [c, '0'] := by
        refine ⟨?_, '0', by simp, rfl⟩
        have hone : List.count '.' [c] ≤ 1 := List.count_le_length
        exact hone
      obtain ⟨value, hvalue⟩ := Option.isSome_iff_exists.mp
        ((Decimal.isSome_readFloat?_iff hnumber).mpr hreadable)
      exact ⟨['0'], _, .number hnumber hreadable hvalue⟩

theorem start_or_numeral_of_isIdentifierRest {c : Char} (h : isIdentifierRest c = true) :
    isIdentifierStart c = true ∨ Token.isNumeral c = true := by
  rcases Bool.or_eq_true_iff.mp h with halphanum | hunderscore
  · rcases Bool.or_eq_true_iff.mp halphanum with halpha | hdigit
    · exact Or.inl (Bool.or_eq_true_iff.mpr (Or.inl halpha))
    · exact Or.inr (Bool.or_eq_true_iff.mpr (Or.inl hdigit))
  · exact Or.inl (Bool.or_eq_true_iff.mpr (Or.inr hunderscore))

/-- A character in a word starts some lexeme as well. -/
theorem IsWord.startsLexeme_of_mem {word : List Char} (h : IsWord word) {c : Char}
    (hc : c ∈ word) : StartsLexeme c := by
  rw [startsLexeme_iff]
  cases h with
  | operator operation => exact Or.inl (Or.inr (Or.inr ⟨operation, List.mem_singleton.mp hc⟩))
  | openParen => exact Or.inl (Or.inl (List.mem_singleton.mp hc))
  | closeParen => exact Or.inl (Or.inr (Or.inl (List.mem_singleton.mp hc)))
  | identifier h =>
      exact Or.inr (start_or_numeral_of_isIdentifierRest (isIdentifierRest_of_mem h hc))
  | number h =>
      rcases List.mem_append.mp hc with hmantissa | hexponent
      · exact Or.inr (Or.inr (h.numeral c hmantissa))
      · rcases h.exponent.isNumberChar_of_mem hexponent with hdigit | hother
        · exact Or.inr (Or.inr (Bool.or_eq_true_iff.mpr (Or.inl hdigit)))
        · have hletter : c = '+' ∨ c = '-' ∨ c = '.' ∨ c = 'e' ∨ c = 'E' := by simpa using hother
          rcases hletter with rfl | rfl | rfl | rfl | rfl
          · exact Or.inl (Or.inr (Or.inr ⟨.add, rfl⟩))
          · exact Or.inl (Or.inr (Or.inr ⟨.sub, rfl⟩))
          · exact Or.inr (Or.inr rfl)
          · exact Or.inr (Or.inl rfl)
          · exact Or.inr (Or.inl rfl)

/-- A text that is cut into lexemes has separators, and characters that start some lexeme. -/
theorem Munches.separator_or_startsLexeme {cs : List Char} {ls : List Lexeme} (h : Munches cs ls) :
    ∀ c ∈ cs, Token.isSeparator c = true ∨ StartsLexeme c := by
  induction h with
  | nil =>
      intro c hc
      cases hc
  | separator hsep _ ih =>
      intro c hc
      rcases List.mem_cons.mp hc with rfl | hc
      · exact Or.inl hsep
      · exact ih c hc
  | word longest _ _ ih =>
      intro c hc
      rcases List.mem_append.mp hc with hword | hrest
      · exact Or.inr (longest.isWord.startsLexeme_of_mem hword)
      · exact ih c hrest

/-! ### The place where the cut stops -/

/-- A text starts with what is no lexeme: a character that starts none, or a number whose longest
form has more than one point or no digit in front of its exponent. -/
inductive Offends : List Char → Prop where
  | character {c : Char} {cs : List Char} (separates : ¬Token.isSeparator c = true)
      (starts : ¬StartsLexeme c) : Offends (c :: cs)
  | number {mantissa exponent cs : List Char} (h : IsNumber mantissa exponent)
      (longest : IsLongest (mantissa ++ exponent) cs) (malformed : ¬IsReadable mantissa) :
      Offends cs

namespace Token

theorem offends_of_scan {c : Char} {cs : List Char} {cause : ParseError.Cause}
    (hsep : ¬isSeparator c = true) (h : scan c cs = .error cause) : Offends (c :: cs) := by
  by_cases hnumeral : isNumeral c = true
  · have hnumber := isNumber_scanNumber hnumeral cs
    refine .number hnumber (isLongest_number hnumeral cs) ?_
    intro hreadable
    obtain ⟨value, hvalue⟩ := Option.isSome_iff_exists.mp
      ((Decimal.isSome_readFloat?_iff hnumber).mpr hreadable)
    have hread : Decimal.readFloat? (scanNumber (c :: cs)).1 = some value := hvalue
    rw [scan_number hnumeral, hread] at h
    cases h
  · apply Offends.character hsep
    rw [startsLexeme_iff]
    rintro (hsymbol | hstart | hstart)
    · rcases hsymbol with rfl | rfl | ⟨operation, rfl⟩
      · cases h
      · cases h
      · rw [scan_operator] at h
        cases h
    · rw [scan_identifier hstart] at h
      cases h
    · exact hnumeral hstart

theorem utf8Size_of_isSeparator {c : Char} (h : isSeparator c = true) : c.utf8Size = 1 := by
  rcases eq_of_isSeparator h with rfl | rfl | rfl | rfl <;> rfl

/-- A scanned lexeme goes in front of what is cut behind it. -/
theorem munchesBefore_cons {c : Char} {cs front rest : List Char} {s : Scan} {ls : List Lexeme}
    (hscan : scan c cs = .ok s) (hrest : s.rest = front ++ rest)
    (hmore : MunchesBefore rest front ls) :
    c :: cs = s.source ++ front ++ rest ∧
      MunchesBefore rest (s.source ++ front) (s.lexeme :: ls) := by
  obtain ⟨hlongest, hspells⟩ := longest_of_scan hscan
  obtain ⟨happend, -⟩ := scan_append hscan
  rw [hrest] at happend
  refine ⟨by rw [List.append_assoc, happend], ?_⟩
  rw [← happend] at hlongest
  exact .word hlongest hspells hmore

/-- The cut stops behind words that spell lexemes, where the scanner finds none. -/
theorem stops_of_allFrom {position : Nat} {cs : List Char} {error : ParseError}
    (h : allFrom position cs = .error error) :
    ∃ front c rest ls, cs = front ++ c :: rest ∧ error.position = position + byteLength front ∧
      MunchesBefore (c :: rest) front ls ∧ ¬isSeparator c = true ∧
      scan c rest = .error error.cause := by
  fun_induction allFrom position cs with
  | case1 position => cases h
  | case2 position c cs hsep ih =>
      obtain ⟨front, d, rest, ls, rfl, hposition, hmunches, hstop⟩ := ih h
      refine ⟨c :: front, d, rest, ls, rfl, ?_, .separator hsep hmunches, hstop⟩
      rw [hposition, byteLength_cons, utf8Size_of_isSeparator hsep, Nat.add_assoc]
  | case3 position c cs hsep cause hscan =>
      cases h
      exact ⟨[], c, cs, [], rfl, rfl, .nil, hsep, hscan⟩
  | case4 position c cs hsep s hscan inner hmore ih =>
      cases h
      obtain ⟨front, d, rest, ls, hrest, hposition, hmunches, hstop⟩ := ih hmore
      obtain ⟨happend, hword⟩ := munchesBefore_cons hscan hrest hmunches
      refine ⟨s.source ++ front, d, rest, s.lexeme :: ls, happend, ?_, hword, hstop⟩
      rw [hposition, byteLength_append, Nat.add_assoc]
  | case5 position c cs hsep s hscan more hmore ih => cases h

/-- The cut stops in front of what is no lexeme. -/
theorem offends_of_allFrom {position : Nat} {cs : List Char} {error : ParseError}
    (h : allFrom position cs = .error error) :
    ∃ front rest ls, cs = front ++ rest ∧ error.position = position + byteLength front ∧
      MunchesBefore rest front ls ∧ Offends rest := by
  obtain ⟨front, c, rest, ls, happend, hposition, hmunches, hsep, hscan⟩ := stops_of_allFrom h
  exact ⟨front, c :: rest, ls, happend, hposition, hmunches, offends_of_scan hsep hscan⟩

/-- A token is at the place of its word in the text. -/
theorem exists_front_of_allFrom {position : Nat} {cs : List Char} {before after : List Token}
    {token : Token} (h : allFrom position cs = .ok (before ++ token :: after)) :
    ∃ front rest, cs = front ++ (token.source ++ rest) ∧
      token.position = position + byteLength front ∧
      MunchesBefore (token.source ++ rest) front (before.map Token.lexeme) ∧
      IsLongest token.source (token.source ++ rest) ∧ Spells token.source token.lexeme := by
  generalize htokens : before ++ token :: after = tokens at h
  fun_induction allFrom position cs generalizing before tokens with
  | case1 position =>
      cases h
      exact absurd htokens (by simp)
  | case2 position c cs hsep ih =>
      obtain ⟨front, rest, rfl, hposition, hmunches, hword⟩ := ih _ htokens h
      refine ⟨c :: front, rest, rfl, ?_, .separator hsep hmunches, hword⟩
      rw [hposition, byteLength_cons, utf8Size_of_isSeparator hsep, Nat.add_assoc]
  | case3 position c cs hsep cause hscan => cases h
  | case4 position c cs hsep s hscan inner hmore ih => cases h
  | case5 position c cs hsep s hscan more hmore ih =>
      cases h
      cases before with
      | nil =>
          cases htokens
          obtain ⟨hlongest, hspells⟩ := longest_of_scan hscan
          obtain ⟨happend, -⟩ := scan_append hscan
          rw [← happend] at hlongest
          exact ⟨[], s.rest, happend.symm, rfl, .nil, hlongest, hspells⟩
      | cons first others =>
          obtain ⟨rfl, rfl⟩ := List.cons.inj htokens
          obtain ⟨front, rest, hrest, hposition, hmunches, hword⟩ := ih _ rfl hmore
          obtain ⟨happend, hcut⟩ := munchesBefore_cons hscan hrest hmunches
          refine ⟨s.source ++ front, rest, happend, ?_, hcut, hword⟩
          rw [hposition, byteLength_append, Nat.add_assoc]

end Token

/-! ### The first offence -/

namespace Arithmetic

/-- **An error points at the first offence of a text.**  If the text is not cut into lexemes, the
cut stops there: what is in front is cut, and there stands the first character that starts no
lexeme, or the first number that is none.  If it is cut, either there stands the first lexeme
that no expression goes on with, or all lexemes begin an expression but are none, and the error
is at the end. -/
theorem parse_error_is_at_first_offence {cs : List Char} {error : ParseError}
    (h : parse cs = .error error) :
    ((¬∃ ls, Munches cs ls) →
      ∃ front rest ls, cs = front ++ rest ∧ error.position = byteLength front ∧
        MunchesBefore rest front ls ∧ Munches front ls ∧
        (∀ c ∈ front, Token.isSeparator c = true ∨ StartsLexeme c) ∧ Offends rest) ∧
    (∀ ls, Munches cs ls →
      (∃ front word rest before l after, cs = front ++ (word ++ rest) ∧
        error.position = byteLength front ∧ ls = before ++ l :: after ∧
        MunchesBefore (word ++ rest) front before ∧
        IsLongest word (word ++ rest) ∧ Spells word l ∧
        Begins before ∧ ¬Begins (before ++ [l])) ∨
      (error.position = byteLength cs ∧ Begins ls ∧ ∀ e, ¬Derives .sum ls e)) := by
  rw [parse] at h
  refine ⟨?_, ?_⟩
  · intro hnone
    cases hall : Token.all cs with
    | ok tokens => exact absurd ⟨_, (Token.all_eq_ok_iff cs _).mp ⟨tokens, hall, rfl⟩⟩ hnone
    | error stop =>
        rw [hall] at h
        cases h
        obtain ⟨front, rest, ls, happend, hposition, hcut, hoffends⟩ :=
          Token.offends_of_allFrom hall
        rw [Nat.zero_add] at hposition
        exact ⟨front, rest, ls, happend, hposition, hcut, hcut.munches,
          hcut.munches.separator_or_startsLexeme, hoffends⟩
  · intro ls hmunches
    obtain ⟨tokens, hall, rfl⟩ := (Token.all_eq_ok_iff cs ls).mpr hmunches
    rw [hall] at h
    rcases refused_of_ofTokens h with
      ⟨before, token, after, rfl, hposition, hbegins, hrefused⟩ | hend
    · left
      obtain ⟨front, rest, happend, hplace, hcut, hlongest, hspells⟩ :=
        Token.exists_front_of_allFrom hall
      rw [hplace, Nat.zero_add] at hposition
      exact ⟨front, token.source, rest, before.map Token.lexeme, token.lexeme,
        after.map Token.lexeme, happend, hposition, by rw [List.map_append, List.map_cons],
        hcut, hlongest, hspells, hbegins, hrefused⟩
    · right
      exact hend

/-- Behind an operand that stands in parentheses, a name is the first lexeme that no expression
goes on with; and a number with two points stops the cut, whatever comes behind it. -/
theorem first_offences_of_two_texts :
    let unclosed := "2 * (a b".toList
    let unreadable := "rate + 1.2.3 $".toList
    (∃ front word rest before l, unclosed = front ++ (word ++ rest) ∧ byteLength front = 7 ∧
      Spells word l ∧ Begins before ∧ ¬Begins (before ++ [l])) ∧
    (∃ front rest ls, unreadable = front ++ rest ∧ byteLength front = 7 ∧ Munches front ls ∧
      Offends rest) := by
  intro unclosed unreadable
  have hunclosed : parse unclosed = .error ⟨.expectedClose (some (.identifier "b")), 7⟩ := by
    decide +kernel
  have hunreadable : parse unreadable = .error ⟨.malformedNumber "1.2.3", 7⟩ := by
    decide +kernel
  refine ⟨?_, ?_⟩
  · obtain ⟨-, hcut⟩ := parse_error_is_at_first_offence hunclosed
    cases hall : Token.all unclosed with
    | error stop =>
        have hok : (Token.all unclosed).isOk = true := by decide +kernel
        rw [hall] at hok
        cases hok
    | ok tokens =>
        rcases hcut _ ((Token.all_eq_ok_iff _ _).mp ⟨tokens, hall, rfl⟩) with
          ⟨front, word, rest, before, l, -, happend, hposition, -, -, -, hspells, hbegins,
            hrefused⟩ | ⟨hend, -⟩
        · exact ⟨front, word, rest, before, l, happend, hposition.symm, hspells, hbegins, hrefused⟩
        · exact absurd hend (by decide)
  · obtain ⟨hstop, -⟩ := parse_error_is_at_first_offence hunreadable
    have hnone : ¬∃ ls, Munches unreadable ls := by
      rintro ⟨ls, hmunches⟩
      obtain ⟨tokens, hall, -⟩ := (Token.all_eq_ok_iff _ _).mpr hmunches
      have hok : (Token.all unreadable).isOk = false := by decide +kernel
      rw [hall] at hok
      cases hok
    obtain ⟨front, rest, ls, happend, hposition, -, hmunches, -, hoffends⟩ := hstop hnone
    exact ⟨front, rest, ls, happend, hposition.symm, hmunches, hoffends⟩

end Arithmetic

end ChartScript
