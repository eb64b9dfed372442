/-
Provider rows in JSON.

The document is a list.  A row is an object with a time and up to five prices, any of
which may be null, or a list of exactly these six values.  Members that nothing uses are
passed over, whatever they hold.
-/
import ChartScript.Bar
import ChartScript.Json.Decode
import ChartScript.Json.Parse

namespace ChartScript.Source

/-- Read a price, which may be null. -/
def priceOfJson? : Json → Option (Option Float)
  | .null => some none
  | value => value.asFloat?.map some

/-- Read the price of a member, which may be absent. -/
def priceOfMember? (key : String) (members : List (Option String × Json)) :
    Option (Option Float) := do
  match ← Json.optional? key members with
  | none => return none
  | some value => priceOfJson? value

/-- Read a row. -/
def rowOfJson? : Json → Option Row
  | .object members => do
      if members.any fun member => member.1.isNone then none
      let time ← (← Json.required? "time" members).asInt64?
      let openPrice ← priceOfMember? "open" members
      let high ← priceOfMember? "high" members
      let low ← priceOfMember? "low" members
      let close ← priceOfMember? "close" members
      let volume ← priceOfMember? "volume" members
      return { time, openPrice, high, low, close, volume }
  | .list [time, openPrice, high, low, close, volume] => do
      return {
        time := ← time.asInt64?
        openPrice := ← priceOfJson? openPrice
        high := ← priceOfJson? high
        low := ← priceOfJson? low
        close := ← priceOfJson? close
        volume := ← priceOfJson? volume }
  | _ => none

/-- The rows of a text. -/
def jsonRows? (cs : List Char) : Option (List Row) := do
  let items ← (← Json.parse? cs).asList?
  items.mapM rowOfJson?

end ChartScript.Source
