/-
Cutting arithmetic text into tokens.

Spaces, tabs, carriage returns and line feeds separate tokens and are otherwise
skipped; no other blank is.  A token takes as many characters as it can.  A number
takes all digits and points that follow one another, and an exponent only when a
digit stands in it, so `2e` is the number 2 with the name `e` behind it.

Each token keeps the text it was read from, so the tokens of a text and the
separators between them are the text again.
-/
import ChartScript.Arguments

namespace ChartScript

open Text

/-- A lexeme, the text it was read from, and the byte it starts at. -/
structure Token where
  lexeme : Lexeme
  source : List Char
  position : Nat
deriving DecidableEq

namespace Token

/-- A character that separates tokens. -/
def isSeparator (c : Char) : Bool :=
  c == ' ' || c == '\t' || c == '\r' || c == '\n'

/-- A character that a number starts with, and that goes on with it up to the
exponent. -/
def isNumeral (c : Char) : Bool :=
  c.isDigit || c == '.'

/-- The sign at the front of a text, if there is one, and what follows. -/
def scanSign : List Char → List Char × List Char
  | '+' :: cs => (['+'], cs)
  | '-' :: cs => (['-'], cs)
  | cs => ([], cs)

/-- The exponent at the front of a text, which is empty when no digit stands in it,
and what follows. -/
def scanExponent : List Char → List Char × List Char
  | [] => ([], [])
  | e :: cs =>
      let (sign, tail) := scanSign cs
      if (e == 'e' || e == 'E') && !(tail.takeWhile Char.isDigit).isEmpty then
        (e :: sign ++ tail.takeWhile Char.isDigit, tail.dropWhile Char.isDigit)
      else ([], e :: cs)

/-- The number at the front of a text, and what follows. -/
def scanNumber (cs : List Char) : List Char × List Char :=
  let (exponent, rest) := scanExponent (cs.dropWhile isNumeral)
  (cs.takeWhile isNumeral ++ exponent, rest)

/-- The operation that a character stands for, if it stands for one. -/
def operation? (c : Char) : Option Operation :=
  if c == '+' then some .add
  else if c == '-' then some .sub
  else if c == '*' then some .mul
  else if c == '/' then some .div
  else none

/-- A lexeme at the front of a text, the text it takes, and what follows. -/
structure Scan where
  lexeme : Lexeme
  source : List Char
  rest : List Char

/-- Read one lexeme, which starts with `c`. -/
def scan (c : Char) (cs : List Char) : Except ParseError.Cause Scan :=
  match operation? c with
  | some operation => .ok ⟨.operator operation, [c], cs⟩
  | none =>
      if c == '(' then .ok ⟨.openParen, [c], cs⟩
      else if c == ')' then .ok ⟨.closeParen, [c], cs⟩
      else if isNumeral c then
        let (source, rest) := scanNumber (c :: cs)
        match Decimal.read? source with
        | some numeral => .ok ⟨.number numeral.toFloat, source, rest⟩
        | none => .error (.malformedNumber (String.ofList source))
      else if isIdentifierStart c then
        let source := c :: cs.takeWhile isIdentifierRest
        .ok ⟨.identifier (String.ofList source), source, cs.dropWhile isIdentifierRest⟩
      else .error (.unexpectedCharacter c)

/-! ### Nothing is lost -/

theorem scanSign_append (cs : List Char) : (scanSign cs).1 ++ (scanSign cs).2 = cs := by
  unfold scanSign
  split <;> rfl

theorem scanExponent_append (cs : List Char) :
    (scanExponent cs).1 ++ (scanExponent cs).2 = cs := by
  cases cs with
  | nil => rfl
  | cons e cs =>
      simp only [scanExponent]
      split
      · simp [List.takeWhile_append_dropWhile, scanSign_append]
      · rfl

theorem scanNumber_append (cs : List Char) : (scanNumber cs).1 ++ (scanNumber cs).2 = cs := by
  simp only [scanNumber, List.append_assoc, scanExponent_append,
    List.takeWhile_append_dropWhile]

theorem scanNumber_ne_nil {c : Char} (h : isNumeral c = true) (cs : List Char) :
    (scanNumber (c :: cs)).1 ≠ [] := by
  simp [scanNumber, h]

/-- The text of a lexeme and what follows it are the text that was read. -/
theorem scan_append {c : Char} {cs : List Char} {s : Scan} (h : scan c cs = .ok s) :
    s.source ++ s.rest = c :: cs ∧ s.source ≠ [] := by
  unfold scan at h
  split at h
  · cases h; simp
  split at h
  · cases h; simp
  split at h
  · cases h; simp
  split at h
  · rename_i hnum
    simp only at h
    split at h
    · cases h
      exact ⟨scanNumber_append _, scanNumber_ne_nil hnum cs⟩
    · cases h
  split at h
  · cases h
    simp [List.takeWhile_append_dropWhile]
  · cases h

theorem scan_length {c : Char} {cs : List Char} {s : Scan} (h : scan c cs = .ok s) :
    s.rest.length < (c :: cs).length := by
  obtain ⟨happ, hne⟩ := scan_append h
  rw [← happ, List.length_append]
  have := List.length_pos_iff.mpr hne
  omega

/-! ### All tokens -/

/-- The tokens of a text that starts at byte `position`. -/
def allFrom (position : Nat) : List Char → Except ParseError (List Token)
  | [] => .ok []
  | c :: cs =>
      if isSeparator c then allFrom (position + 1) cs
      else
        match _h : scan c cs with
        | .error cause => .error ⟨cause, position⟩
        | .ok s =>
            match allFrom (position + byteLength s.source) s.rest with
            | .error e => .error e
            | .ok tokens => .ok (⟨s.lexeme, s.source, position⟩ :: tokens)
termination_by cs => cs.length
decreasing_by
  · simp
  · exact scan_length _h

/-- The tokens of a text. -/
def all (cs : List Char) : Except ParseError (List Token) :=
  allFrom 0 cs

end Token

end ChartScript
