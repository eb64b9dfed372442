/-
Reading arithmetic text.

The grammar is

    sum     := product (('+' | '-') product)*
    product := signed (('*' | '/') signed)*
    signed  := ('+' | '-') signed | atom
    atom    := number | identifier | '(' sum ')'

with both kinds of operation grouping to the left, a sign binding tighter than
either, and a plus sign leaving no trace.

The reader takes one token at a time and never looks ahead.  What it has read so far
is a stack of levels, one for each parenthesis that is open and one for the text
outside all of them; a level holds a sum that waits for its right operand, a product
that waits for its right operand, and the minus signs in front of the operand that
comes next.  An error therefore names the first token after which no expression
could have gone on, or the end of the text.
-/
import ChartScript.Arithmetic.Token

namespace ChartScript

open Text

namespace Arithmetic

/-- What has been read inside one pair of parentheses, in front of the operand that
comes next. -/
structure Level where
  /-- A left operand and `+` or `-`. -/
  sum : Option (Arithmetic × Operation)
  /-- A left operand and `*` or `/`. -/
  product : Option (Arithmetic × Operation)
  /-- How many minus signs stand in front of the next operand. -/
  signs : Nat

namespace Level

/-- The level that a parenthesis opens. -/
def empty : Level := ⟨none, none, 0⟩

/-- An expression behind a number of minus signs. -/
def negate : Nat → Arithmetic → Arithmetic
  | 0, e => e
  | n + 1, e => negate n (.neg e)

/-- A left operand that waits, joined with its right operand. -/
def join (left : Option (Arithmetic × Operation)) (right : Arithmetic) : Arithmetic :=
  match left with
  | none => right
  | some (l, operation) => .binary operation l right

/-- The product that ends with a signed operand. -/
def closeProduct (level : Level) (operand : Arithmetic) : Arithmetic :=
  join level.product operand

/-- The sum that ends with a signed operand. -/
def closeSum (level : Level) (operand : Arithmetic) : Arithmetic :=
  join level.sum (level.closeProduct operand)

end Level

/-- Where the reader stands. -/
inductive Progress where
  /-- An operand has to come next. -/
  | operand (level : Level) (outer : List Level)
  /-- The operand before is complete, its signs included. -/
  | operator (operand : Arithmetic) (level : Level) (outer : List Level)

namespace Progress

/-- Nothing has been read. -/
def start : Progress := .operand .empty []

/-- An atom has been read. -/
def atom (level : Level) (outer : List Level) (e : Arithmetic) : Progress :=
  .operator (Level.negate level.signs e) { level with signs := 0 } outer

/-- Read one token where an operand has to come. -/
def readOperand (level : Level) (outer : List Level) :
    Lexeme → Except ParseError.Cause Progress
  | .number value => .ok (atom level outer (.number value))
  | .identifier name => .ok (atom level outer (.symbol name))
  | .openParen => .ok (.operand .empty (level :: outer))
  | .operator .add => .ok (.operand level outer)
  | .operator .sub => .ok (.operand { level with signs := level.signs + 1 } outer)
  | found => .error (.expectedOperand (some found))

/-- A token that neither goes on with an expression nor closes its parenthesis. -/
def misplaced (outer : List Level) (found : Lexeme) : ParseError.Cause :=
  if outer.isEmpty then .surplusLexeme found else .expectedClose (some found)

/-- Read one token behind a complete operand. -/
def readOperator (e : Arithmetic) (level : Level) (outer : List Level) :
    Lexeme → Except ParseError.Cause Progress
  | .operator .add => .ok (.operand ⟨some (level.closeSum e, .add), none, 0⟩ outer)
  | .operator .sub => .ok (.operand ⟨some (level.closeSum e, .sub), none, 0⟩ outer)
  | .operator .mul =>
      .ok (.operand { level with product := some (level.closeProduct e, .mul) } outer)
  | .operator .div =>
      .ok (.operand { level with product := some (level.closeProduct e, .div) } outer)
  | .closeParen =>
      match outer with
      | [] => .error (.surplusLexeme .closeParen)
      | below :: others => .ok (atom below others (level.closeSum e))
  | found => .error (misplaced outer found)

/-- Read one token. -/
def next (progress : Progress) (token : Token) : Except ParseError Progress :=
  let step :=
    match progress with
    | .operand level outer => readOperand level outer token.lexeme
    | .operator e level outer => readOperator e level outer token.lexeme
  match step with
  | .ok progress => .ok progress
  | .error cause => .error ⟨cause, token.position⟩

/-- Read some tokens. -/
def readAll (progress : Progress) : List Token → Except ParseError Progress
  | [] => .ok progress
  | token :: tokens =>
      match progress.next token with
      | .ok progress => progress.readAll tokens
      | .error e => .error e

/-- The expression that ends here. -/
def finish : Progress → Except ParseError.Cause Arithmetic
  | .operand _ _ => .error (.expectedOperand none)
  | .operator e level [] => .ok (level.closeSum e)
  | .operator _ _ (_ :: _) => .error (.expectedClose none)

end Progress

/-- The expression that some tokens make, of a text that is `length` bytes long. -/
def ofTokens (length : Nat) (tokens : List Token) : Except ParseError Arithmetic :=
  match Progress.start.readAll tokens with
  | .error e => .error e
  | .ok progress =>
      match progress.finish with
      | .ok e => .ok e
      | .error cause => .error ⟨cause, length⟩

/-- The expression that a text makes. -/
def parse (cs : List Char) : Except ParseError Arithmetic :=
  match Token.all cs with
  | .error e => .error e
  | .ok tokens => ofTokens (byteLength cs) tokens

end Arithmetic

end ChartScript
