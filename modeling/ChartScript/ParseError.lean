/-
Errors that point into a text.

A parse error is a cause and a place, counted in bytes from the start of the text
that was read.  The wording of every cause is fixed here and nowhere else.
-/
import ChartScript.Arithmetic.Lexeme

namespace ChartScript

namespace ParseError

/-- What is wrong at the place of a parse error. -/
inductive Cause where
  /-- A character that begins no lexeme. -/
  | unexpectedCharacter (found : Char)
  /-- Digits and points that make no numeral. -/
  | malformedNumber (text : String)
  /-- Something that begins no operand, or the end. -/
  | expectedOperand (found : Option Lexeme)
  /-- Something that does not close a parenthesis, or the end. -/
  | expectedClose (found : Option Lexeme)
  /-- A lexeme behind a complete expression. -/
  | surplusLexeme (found : Lexeme)
  /-- Something that does not open an argument list, or the end. -/
  | expectedOpen (found : Option Char)
  /-- Text behind a complete call. -/
  | surplusText (found : String)
deriving DecidableEq

/-- How an error names a lexeme that it found, or the end. -/
def found : Option Lexeme → String
  | none => "end of input"
  | some lexeme => lexeme.description

/-- The wording of a cause. -/
def Cause.message : Cause → String
  | .unexpectedCharacter c => "unexpected character '" ++ String.singleton c ++ "'"
  | .malformedNumber text => s!"invalid number: {text}"
  | .expectedOperand lexeme => "expected number, variable or '(', found " ++ found lexeme
  | .expectedClose lexeme => "expected ')', found " ++ found lexeme
  | .surplusLexeme lexeme => "unexpected " ++ lexeme.description ++ " after expression"
  | .expectedOpen none => "expected '(', found end of input"
  | .expectedOpen (some c) => "expected '(', found '" ++ String.singleton c ++ "'"
  | .surplusText text => s!"unexpected input after call: '{text}'"

/-- A message together with its place. -/
def placed (message : String) (position : Nat) : String :=
  s!"parse error at position {position}: {message}"

/-- A text, a caret behind as many blanks as the place has bytes before it, and the
message with its place. -/
def inContext (message : String) (position : Nat) (text : String) : String :=
  let caret := String.ofList (List.replicate position ' ') ++ "^"
  text ++ "\n" ++ caret ++ "\n" ++ placed message position

end ParseError

/-- A cause and a place in the text that was read. -/
structure ParseError where
  cause : ParseError.Cause
  position : Nat
deriving DecidableEq

namespace ParseError

/-- The wording of the cause, without the place. -/
def message (e : ParseError) : String :=
  e.cause.message

/-- The wording with the place. -/
def display (e : ParseError) : String :=
  placed e.message e.position

/-- The error below the text that it is about. -/
def context (e : ParseError) (text : String) : String :=
  inContext e.message e.position text

end ParseError

end ChartScript
