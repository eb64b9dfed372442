/-
Plots and the outcome of a run.

A plot pairs the values of a series with the times of the bars, and leaves out every
bar where the series is undefined or infinite.
-/
import ChartScript.Bar

namespace ChartScript

/-- A value at a time. -/
structure PlotPoint where
  time : Int64
  value : Float
deriving DecidableEq

/-- The points of a series, with the name and color they are drawn with. -/
structure PlotResult where
  name : String
  color : String
  data : List PlotPoint
deriving DecidableEq

/-- The point of a bar, if the value there is finite. -/
def PlotPoint.ofBar? (bar : Bar) (value : Float) : Option PlotPoint :=
  if value.isFinite then some ⟨bar.time, value⟩ else none

/-- Pair bars with values, up to the end of the shorter list. -/
def PlotResult.assemble (name color : String) (bars : List Bar) (series : List Float) :
    PlotResult where
  name
  color
  data := (bars.zip series).filterMap fun (bar, value) => PlotPoint.ofBar? bar value

/-- What a run comes to. -/
inductive Outcome where
  | success (results : List PlotResult)
  | failure (message : String)
deriving DecidableEq

namespace Outcome

/-- Whether the run succeeded. -/
def isSuccess : Outcome → Bool
  | .success _ => true
  | .failure _ => false

/-- The plots of a successful run; a failed one has none. -/
def results : Outcome → List PlotResult
  | .success results => results
  | .failure _ => []

/-- Why the run failed, if it did. -/
def message? : Outcome → Option String
  | .success _ => none
  | .failure message => some message

end Outcome

end ChartScript
