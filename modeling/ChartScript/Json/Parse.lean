/-
Values from tokens.

The reader takes one token at a time.  What it has read so far is a stack of the lists
and objects that are open, each with what is already in it; nothing is read ahead, and
how deep the nesting goes makes no difference.
-/
import ChartScript.Json.Token

namespace ChartScript.Json

/-- A list or an object that is open, with its parts so far, the last one first. -/
inductive Frame where
  | list (items : List Json)
  /-- An object with a key that its value is about to follow. -/
  | member (members : List (Option String × Json)) (key : Option String)

/-- Where the reader stands. -/
inductive Progress where
  /-- A value has to come. -/
  | needsValue (stack : List Frame)
  /-- A list has just been opened. -/
  | openedList (stack : List Frame)
  /-- An object has just been opened. -/
  | openedObject (stack : List Frame)
  /-- A key has to come. -/
  | needsKey (members : List (Option String × Json)) (stack : List Frame)
  /-- A colon has to come. -/
  | needsColon (members : List (Option String × Json)) (key : Option String)
      (stack : List Frame)
  /-- A value is complete. -/
  | complete (value : Json) (stack : List Frame)

namespace Progress

/-- Read a token where a value has to come. -/
def readValue (stack : List Frame) : Token → Option Progress
  | .null => some (.complete .null stack)
  | .bool value => some (.complete (.bool value) stack)
  | .number written => some (.complete (.number written) stack)
  | .text value => some (.complete (.text value) stack)
  | .openList => some (.openedList stack)
  | .openObject => some (.openedObject stack)
  | _ => none

/-- Read a token behind a complete value. -/
def readComplete (value : Json) : List Frame → Token → Option Progress
  | .list items :: stack, .comma => some (.needsValue (.list (value :: items) :: stack))
  | .list items :: stack, .closeList => some (.complete (.list (value :: items).reverse) stack)
  | .member members key :: stack, .comma => some (.needsKey ((key, value) :: members) stack)
  | .member members key :: stack, .closeObject =>
      some (.complete (.object ((key, value) :: members).reverse) stack)
  | _, _ => none

/-- Read one token. -/
def next : Progress → Token → Option Progress
  | .needsValue stack, token => readValue stack token
  | .openedList stack, .closeList => some (.complete (.list []) stack)
  | .openedList stack, token => readValue (.list [] :: stack) token
  | .openedObject stack, .closeObject => some (.complete (.object []) stack)
  | .openedObject stack, .text key => some (.needsColon [] key stack)
  | .needsKey members stack, .text key => some (.needsColon members key stack)
  | .needsColon members key stack, .colon => some (.needsValue (.member members key :: stack))
  | .complete value stack, token => readComplete value stack token
  | _, _ => none

/-- Read some tokens. -/
def readAll (progress : Progress) : List Token → Option Progress
  | [] => some progress
  | token :: tokens => (progress.next token).bind fun progress => progress.readAll tokens

end Progress

/-- The value that some tokens make. -/
def ofTokens? (tokens : List Token) : Option Json :=
  match (Progress.needsValue []).readAll tokens with
  | some (.complete value []) => some value
  | _ => none

/-- The value that a text makes. -/
def parse? (cs : List Char) : Option Json :=
  (Token.all? cs).bind ofTokens?

end ChartScript.Json
