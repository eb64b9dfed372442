/-
Configuration text: sections of keys with values.

A line is a section name in brackets, a key with a value behind an equals sign or a
colon, or a key alone.  A semicolon or a hash sign ends what counts of a line.  Section
names and keys are the same in capitals and in small letters, and the last line for a
key is the one that stands, even if it gives no value.
-/
import ChartScript.Text.Blank
import ChartScript.Text.Lines
import ChartScript.Text.LowerCase

namespace ChartScript

open Text

/-- A line that gives a key, in the section it stands in. -/
structure Ini.Entry where
  group : List Char
  key : List Char
  value : Option String
deriving DecidableEq, Repr

/-- The keys of a text, the last one first. -/
structure Ini where
  entries : List Ini.Entry
deriving DecidableEq, Repr

namespace Ini

/-- What is wrong with a line. -/
inductive Fault where
  | unclosedBracket (line : Nat)
  | emptyKey (line byte : Nat)
deriving DecidableEq, Repr

/-- The wording of a fault. -/
def Fault.message : Fault → String
  | .unclosedBracket line =>
      s!"line {line}: Found opening bracket for section name but no closing bracket"
  | .emptyKey line byte => s!"line {line}:{byte}: Key cannot be empty"

/-- A character that starts a comment. -/
def isComment (c : Char) : Bool :=
  c == ';' || c == '#'

/-- A character that stands between a key and its value. -/
def isDelimiter (c : Char) : Bool :=
  c == '=' || c == ':'

/-- What a line says. -/
inductive Item where
  | nothing
  | group (name : List Char)
  | key (name : List Char) (value : Option String)
deriving DecidableEq, Repr

/-- The text in front of the last closing bracket, if there is one. -/
def beforeBracket? (cs : List Char) : Option (List Char) :=
  match cs.reverse.dropWhile (· != ']') with
  | [] => none
  | _ :: before => some before.reverse

/-- Read a line that is trimmed and has no comment. -/
def readCode (number : Nat) : List Char → Except Fault Item
  | '[' :: cs =>
      match beforeBracket? cs with
      | some name => .ok (.group (lowerCase (trim name)))
      | none => .error (.unclosedBracket number)
  | code =>
      let left := code.takeWhile fun c => !isDelimiter c
      match code.dropWhile fun c => !isDelimiter c with
      | [] => .ok (.key (lowerCase code) none)
      | _ :: right =>
          if (trim left).isEmpty then .error (.emptyKey number (byteLength left))
          else .ok (.key (lowerCase (trim left)) (some (String.ofList (trim right))))

/-- Read a line. -/
def readLine (number : Nat) (raw : List Char) : Except Fault Item :=
  match (trim raw).takeWhile fun c => !isComment c with
  | [] => .ok .nothing
  | code => readCode number (trim code)

/-- The section of the lines in front of the first section. -/
def defaultGroup : List Char := "default".toList

/-- Read numbered lines, of which the first stands in the section `group`. -/
def readLines (ini : Ini) (group : List Char) : List (List Char × Nat) → Except Fault Ini
  | [] => .ok ini
  | (raw, number) :: rest =>
      match readLine number raw with
      | .error fault => .error fault
      | .ok .nothing => readLines ini group rest
      | .ok (.group name) => readLines ini name rest
      | .ok (.key name value) => readLines ⟨⟨group, name, value⟩ :: ini.entries⟩ group rest

/-- Read a text. -/
def parse (cs : List Char) : Except Fault Ini :=
  readLines ⟨[]⟩ defaultGroup ((lines cs).zipIdx 1)

/-- The value of a key, if the last line for it gives one. -/
def get? (ini : Ini) (group key : String) : Option String :=
  let group := lowerCase group.toList
  let key := lowerCase key.toList
  (ini.entries.find? fun entry => entry.group == group && entry.key == key).bind (·.value)

/-- The truth value that a word stands for. -/
def readBool? (word : String) : Option Bool :=
  let word := String.ofList (lowerCase word.toList)
  if word == "true" || word == "yes" || word == "1" then some true
  else if word == "false" || word == "no" || word == "0" then some false
  else none

/-- The truth value of a key, or `default` where it has none. -/
def getBool (ini : Ini) (group key : String) (default : Bool) : Bool :=
  ((ini.get? group key).bind readBool?).getD default

end Ini

end ChartScript
