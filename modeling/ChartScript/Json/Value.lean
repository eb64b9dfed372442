/-
JSON values.

A number stays as it is written, since how to read it depends on what is read.  A
string is absent when an escape in it stands for half of a character without the other
half; such a string is allowed where nobody asks for its text.  The members of an object
keep their order, and a key may occur more than once.
-/
import ChartScript.Decimal.Numeral

namespace ChartScript

/-- A JSON value. -/
inductive Json where
  | null
  | bool (value : Bool)
  | number (written : Numeral)
  | text (value : Option String)
  | list (items : List Json)
  | object (members : List (Option String × Json))

namespace Json

/-- The value of a string. -/
def ofString (s : String) : Json :=
  .text (some s)

/-- The value of an integer. -/
def ofInt (i : Int) : Json :=
  .number (.ofInt i)

/-- An object of named members. -/
def ofMembers (members : List (String × Json)) : Json :=
  .object (members.map fun (key, value) => (some key, value))

end Json

end ChartScript
