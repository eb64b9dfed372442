/-
Result documents: the outcome of a run as JSON.

A document is an object whose member `status` tells success from failure.  Reading is
more liberal than writing: members may stand in any order, members that nothing uses are
passed over, and every object may also be a list of its values in order.
-/
import ChartScript.Json.Decode
import ChartScript.Json.Parse
import ChartScript.Json.Write
import ChartScript.Decimal.Layout
import ChartScript.Plot

namespace ChartScript

/-! ### Writing -/

/-- The document of a number: absent unless it is finite. -/
def numberDocument (x : Float) : Json :=
  if x.isFinite then .number (Layout.document.numeral x) else .null

/-- The document of a point. -/
def PlotPoint.toJson (point : PlotPoint) : Json :=
  .ofMembers [("time", .ofInt point.time.toInt), ("value", numberDocument point.value)]

/-- The document of a plot. -/
def PlotResult.toJson (plot : PlotResult) : Json :=
  .ofMembers [("name", .ofString plot.name), ("color", .ofString plot.color),
    ("data", .list (plot.data.map PlotPoint.toJson))]

/-- The document of an outcome. -/
def Outcome.toJson : Outcome → Json
  | .success results =>
      .ofMembers [("status", .ofString "success"),
        ("results", .list (results.map PlotResult.toJson))]
  | .failure message =>
      .ofMembers [("status", .ofString "failure"), ("message", .ofString message)]

/-- The text of an outcome, over lines or compact. -/
def Outcome.document (outcome : Outcome) (pretty : Bool) : String :=
  String.ofList (outcome.toJson.write pretty)

/-- Write an outcome, or say why that cannot be done. -/
def Outcome.document? (outcome : Outcome) (pretty : Bool) : Except String String :=
  (outcome.toJson.write? pretty).map String.ofList

/-! ### Reading -/

/-- Read a point. -/
def PlotPoint.ofJson? : Json → Option PlotPoint
  | .object members => do
      let time ← Json.required? "time" members
      let value ← Json.required? "value" members
      return ⟨← time.asInt64?, ← value.asFloat?⟩
  | .list [time, value] => do return ⟨← time.asInt64?, ← value.asFloat?⟩
  | _ => none

/-- Read a plot from the documents of its parts. -/
def PlotResult.ofParts? (name color data : Json) : Option PlotResult := do
  let name ← name.asString?
  let color ← color.asString?
  let points ← data.asList?
  return ⟨name, color, ← points.mapM PlotPoint.ofJson?⟩

/-- Read a plot. -/
def PlotResult.ofJson? : Json → Option PlotResult
  | .object members => do
      let name ← Json.required? "name" members
      let color ← Json.required? "color" members
      let data ← Json.required? "data" members
      ofParts? name color data
  | .list [name, color, data] => ofParts? name color data
  | _ => none

/-- Read the outcome of a status, whose only other part `part` finds under its key. -/
def Outcome.ofStatus? (status : String) (part : String → Option Json) : Option Outcome :=
  if status == "success" then do
    let results ← part "results"
    return .success (← (← results.asList?).mapM PlotResult.ofJson?)
  else if status == "failure" then do
    let message ← part "message"
    return .failure (← message.asString?)
  else none

/-- Read an outcome. -/
def Outcome.ofJson? (value : Json) : Option Outcome :=
  if !value.isHeld Json.depthLimit then none
  else
    match value with
    | .object members => do
        let status ← Json.required? "status" members
        ofStatus? (← status.asString?) fun key => Json.required? key members
    | .list [status, part] => do ofStatus? (← status.asString?) fun _ => some part
    | _ => none

/-- Read the text of an outcome. -/
def Outcome.ofDocument? (text : String) : Option Outcome :=
  (Json.parse? text.toList).bind ofJson?

end ChartScript
