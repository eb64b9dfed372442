/-
Argument lists: finding the parentheses around one, and cutting it into arguments.

An argument list is cut at the commas that stand outside quoted runs and outside
parentheses.  Each argument is trimmed and otherwise kept as written, quotes
included.  An empty argument between two commas counts; an empty text after the
last comma does not, so `a,` has one argument and an empty list has none.
-/
import ChartScript.ParseError
import ChartScript.Text.Blank
import ChartScript.Text.Lines
import ChartScript.Text.Quotation

namespace ChartScript

open Text

/-! ### Identifiers -/

/-- A letter of the ASCII alphabet or an underscore. -/
def isIdentifierStart (c : Char) : Bool :=
  c.isAlpha || c == '_'

/-- A letter, a digit or an underscore, all of ASCII. -/
def isIdentifierRest (c : Char) : Bool :=
  c.isAlphanum || c == '_'

/-- An identifier: a letter or underscore, then letters, digits and underscores. -/
def isIdentifier : List Char → Bool
  | [] => false
  | c :: cs => isIdentifierStart c && cs.all isIdentifierRest

namespace Arguments

/-! ### Cutting at commas -/

/-- The pieces of a text between its top-level commas, the first piece apart from
the others, reading on from `n`. -/
def piecesFrom (n : Nesting) : List Char → List Char × List (List Char)
  | [] => ([], [])
  | c :: rest =>
      let (first, others) := piecesFrom (n.next c) rest
      if c == ',' && n.isTop then ([], first :: others) else (c :: first, others)

/-- The pieces of a text between its top-level commas, in order. -/
def pieces (cs : List Char) : List (List Char) :=
  let (first, others) := piecesFrom (.atDepth 0) cs
  first :: others

/-- Leave out the last piece if nothing at all stands in it. -/
def dropEmptyLast : List (List Char) → List (List Char)
  | [] => []
  | [last] => if last.isEmpty then [] else [last]
  | piece :: others => piece :: dropEmptyLast others

/-- The arguments of a list, trimmed and in order. -/
def split (cs : List Char) : List (List Char) :=
  (dropEmptyLast (pieces cs)).map trim

/-- Split `key=value` when the key is an identifier and the value does not start
with another `=`. -/
def named? (cs : List Char) : Option (List Char × List Char) :=
  match cs.dropWhile (· != '=') with
  | [] => none
  | _ :: value =>
      let key := trim (cs.takeWhile (· != '='))
      if isIdentifier key && value.head? != some '=' then some (key, trim value) else none

/-! ### Finding the closing parenthesis -/

/-- The text up to the parenthesis that brings the depth back to zero, and the text
behind that parenthesis. -/
def closing (n : Nesting) : List Char → Option (List Char × List Char)
  | [] => none
  | c :: rest =>
      if c == ')' && n.quotation.isOutside && n.depth == 1 then some ([], rest)
      else (closing (n.next c) rest).map fun (inner, after) => (c :: inner, after)

/-- The text between the parenthesis that opens `cs` and the one that matches it,
and what follows.  Errors are placed in a text of which `cs` is the part from byte
`start` on. -/
def enclosed (start : Nat) : List Char → Except ParseError (List Char × List Char)
  | [] => .error ⟨.expectedOpen none, start⟩
  | c :: rest =>
      if c == '(' then
        match closing (.atDepth 1) rest with
        | some (inner, after) => .ok (inner, after)
        | none => .error ⟨.expectedClose none, start + byteLength (c :: rest)⟩
      else .error ⟨.expectedOpen (some c), start⟩

end Arguments

end ChartScript
