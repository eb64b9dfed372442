/-
Bars: the market data a script runs over.

A provider hands out rows in any order, and any price of a row may be missing.  A
row without an opening or a closing price is a gap and makes no bar.  The bars of a
run ascend by time, and rows of equal time keep the order they came in.
-/
import ChartScript.Scalar

namespace ChartScript

/-- The prices of one period, from `time` on, which counts seconds since 1970. -/
structure Bar where
  time : Int64
  openPrice : Float
  high : Float
  low : Float
  close : Float
  volume : Float
deriving DecidableEq

/-- A provider's row, of which any price may be absent. -/
structure Row where
  time : Int64
  openPrice : Option Float
  high : Option Float
  low : Option Float
  close : Option Float
  volume : Option Float
deriving DecidableEq

/-- The bar of a row that has both an opening and a closing price; its other prices
are undefined where they are absent. -/
def Row.toBar? (row : Row) : Option Bar :=
  match row.openPrice, row.close with
  | some openPrice, some close =>
      some {
        time := row.time
        openPrice
        high := row.high.getD Scalar.undefined
        low := row.low.getD Scalar.undefined
        close
        volume := row.volume.getD Scalar.undefined }
  | _, _ => none

/-- Whether a bar is not later than another. -/
def Bar.notAfter (a b : Bar) : Bool :=
  decide (a.time.toInt ≤ b.time.toInt)

/-- The bars of some rows, gaps left out, ascending by time. -/
def Bar.ofRows (rows : List Row) : List Bar :=
  (rows.filterMap Row.toBar?).mergeSort Bar.notAfter

end ChartScript
