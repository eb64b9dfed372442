/-
Taking JSON values apart.
-/
import ChartScript.Json.Number

namespace ChartScript.Json

mutual

/-- Whether a value can be held in memory as a whole: it is nested at most `depth` deep,
every number in it is finite, and every string has a text. -/
def isHeld (depth : Nat) : Json → Bool
  | .null => true
  | .bool _ => true
  | .number written => written.toFloat?.isSome
  | .text value => value.isSome
  | .list items =>
      match depth with
      | 0 => false
      | depth + 1 => areHeld depth items
  | .object members =>
      match depth with
      | 0 => false
      | depth + 1 => areMembersHeld depth members

/-- Whether all of some values can be held. -/
def areHeld (depth : Nat) : List Json → Bool
  | [] => true
  | item :: items => isHeld depth item && areHeld depth items

/-- Whether all of some members can be held. -/
def areMembersHeld (depth : Nat) : List (Option String × Json) → Bool
  | [] => true
  | (key, value) :: members =>
      key.isSome && isHeld depth value && areMembersHeld depth members

end

/-- The deepest nesting of a value that is held. -/
def depthLimit : Nat := 127

/-- The values of the members with a given key. -/
def valuesOf (key : String) (members : List (Option String × Json)) : List Json :=
  (members.filter fun member => member.1 == some key).map (·.2)

/-- The value of a member that must be there once. -/
def required? (key : String) (members : List (Option String × Json)) : Option Json :=
  match valuesOf key members with
  | [value] => some value
  | _ => none

/-- The value of a member that may be there once. -/
def optional? (key : String) (members : List (Option String × Json)) : Option (Option Json) :=
  match valuesOf key members with
  | [] => some none
  | [value] => some (some value)
  | _ => none

/-- A string. -/
def asString? : Json → Option String
  | .text value => value
  | _ => none

/-- A floating-point number. -/
def asFloat? : Json → Option Float
  | .number written => written.toFloat?
  | _ => none

/-- An integer of sixty-four bits. -/
def asInt64? : Json → Option Int64
  | .number written => written.toInt64?
  | _ => none

/-- The items of a list. -/
def asList? : Json → Option (List Json)
  | .list items => some items
  | _ => none

end ChartScript.Json
