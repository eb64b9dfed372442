/-
Writing JSON.

There are two ways to write a value: compact, with nothing between the tokens, and
spread over lines, with each part of a list or an object on a line of its own, two
blanks farther in than the list or object itself.  Empty lists and objects have nothing
between their marks either way.  A key without a text cannot be written.
-/
import ChartScript.Json.Value

namespace ChartScript.Json

open Text

/-- The digit for a number below sixteen, in small letters. -/
def hexDigit (n : Nat) : Char :=
  if n < 10 then Char.ofNat (48 + n) else Char.ofNat (87 + n)

/-- A character inside a string.  Quotes, backslashes and control characters are
escaped, and nothing else is. -/
def escape (c : Char) : List Char :=
  if c == '\x22' then ['\\', '\x22']
  else if c == '\\' then ['\\', '\\']
  else if c == '\x08' then ['\\', 'b']
  else if c == '\x0c' then ['\\', 'f']
  else if c == '\n' then ['\\', 'n']
  else if c == '\r' then ['\\', 'r']
  else if c == '\t' then ['\\', 't']
  else if c.toNat < 0x20 then
    ['\\', 'u', '0', '0', hexDigit (c.toNat / 16), hexDigit (c.toNat % 16)]
  else [c]

/-- A string between its quotes.  A string without a text is written empty. -/
def quoted (s : Option String) : List Char :=
  '\x22' :: (s.getD "").toList.flatMap escape ++ ['\x22']

/-- A word for a truth value. -/
def boolText (b : Bool) : List Char :=
  if b then "true".toList else "false".toList

mutual

/-- The compact text of a value. -/
def compact : Json → List Char
  | .null => "null".toList
  | .bool value => boolText value
  | .number written => written.text
  | .text value => quoted value
  | .list [] => ['[', ']']
  | .list (item :: items) => '[' :: compact item ++ compactItems items ++ [']']
  | .object [] => ['\x7b', '\x7d']
  | .object ((key, value) :: members) =>
      '\x7b' :: quoted key ++ ':' :: compact value ++ compactMembers members ++ ['\x7d']

/-- The items of a list behind its first. -/
def compactItems : List Json → List Char
  | [] => []
  | item :: items => ',' :: compact item ++ compactItems items

/-- The members of an object behind its first. -/
def compactMembers : List (Option String × Json) → List Char
  | [] => []
  | (key, value) :: members => ',' :: quoted key ++ ':' :: compact value ++ compactMembers members

end

/-- A new line, `depth` steps in. -/
def newLine (depth : Nat) : List Char :=
  '\n' :: List.replicate (2 * depth) ' '

mutual

/-- The text of a value over lines, where the value itself is `depth` steps in. -/
def spread (depth : Nat) : Json → List Char
  | .null => "null".toList
  | .bool value => boolText value
  | .number written => written.text
  | .text value => quoted value
  | .list [] => ['[', ']']
  | .list (item :: items) =>
      '[' :: newLine (depth + 1) ++ spread (depth + 1) item ++ spreadItems (depth + 1) items ++
        newLine depth ++ [']']
  | .object [] => ['\x7b', '\x7d']
  | .object ((key, value) :: members) =>
      '\x7b' :: newLine (depth + 1) ++ quoted key ++ [':', ' '] ++ spread (depth + 1) value ++
        spreadMembers (depth + 1) members ++ newLine depth ++ ['\x7d']

/-- The items of a list behind its first. -/
def spreadItems (depth : Nat) : List Json → List Char
  | [] => []
  | item :: items => ',' :: newLine depth ++ spread depth item ++ spreadItems depth items

/-- The members of an object behind its first. -/
def spreadMembers (depth : Nat) : List (Option String × Json) → List Char
  | [] => []
  | (key, value) :: members =>
      ',' :: newLine depth ++ quoted key ++ [':', ' '] ++ spread depth value ++
        spreadMembers depth members

end

/-- The text of a value, over lines or compact. -/
def write (pretty : Bool) (value : Json) : List Char :=
  if pretty then spread 0 value else compact value

mutual

/-- Whether every key in a value has a text. -/
def isKeyed : Json → Bool
  | .null | .bool _ | .number _ | .text _ => true
  | .list items => areKeyed items
  | .object members => membersAreKeyed members

/-- Whether every key in some values has a text. -/
def areKeyed : List Json → Bool
  | [] => true
  | item :: items => isKeyed item && areKeyed items

/-- Whether every key of some members and in their values has a text. -/
def membersAreKeyed : List (Option String × Json) → Bool
  | [] => true
  | (key, value) :: members => key.isSome && isKeyed value && membersAreKeyed members

end

/-- The text of a value, or why it cannot be written. -/
def write? (pretty : Bool) (value : Json) : Except String (List Char) :=
  if value.isKeyed then .ok (value.write pretty) else .error "key must be a string"

end ChartScript.Json
