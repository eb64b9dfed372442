/-
Moving averages.

The simple and the weighted average look at a window.  The exponential one starts at
the first value and mixes each later value into the average so far, so it is defined
from the first index on.  The MACD line is the difference of two exponential
averages.
-/
import ChartScript.Series.Window

namespace ChartScript.Series

open Scalar

variable {α : Type} [Scalar α]

/-- The mean of the last `length` values. -/
def sma (data : List α) (length : Nat) : List α :=
  overWindows length (fun window => window.foldl (· + ·) (ofNat 0) / ofNat length) data

/-- The sum of a window's values, the latest counted `weight` times and each earlier
one once less. -/
def weightedSum (weight : Nat) (sum : α) : List α → α
  | [] => sum
  | x :: xs => weightedSum (weight - 1) (sum + x * ofNat weight) xs

/-- The mean of the last `length` values, weighted from `length` for the latest down
to one for the earliest. -/
def wma (data : List α) (length : Nat) : List α :=
  let n : α := ofNat length
  let divisor := n * (n + ofNat 1) / ofNat 2
  overWindows length (fun window => weightedSum length (ofNat 0) window / divisor) data

/-- The share that a new value has in the exponential average of a given length. -/
def emaShare (length : Nat) : α :=
  ofNat 2 / (ofNat length + ofNat 1)

/-- Mix a value into an average. -/
def mix (share average value : α) : α :=
  value * share + average * (ofNat 1 - share)

/-- The exponential average, seeded with the first value. -/
def ema (data : List α) (length : Nat) : List α :=
  match data with
  | [] => []
  | seed :: later => later.scanl (mix (emaShare length)) seed

/-- The fast exponential average less the slow one. -/
def macdLine (data : List α) (fast slow : Nat) : List α :=
  List.zipWith (· - ·) (ema data fast) (ema data slow)

@[simp] theorem length_sma (data : List α) (length : Nat) :
    (sma data length).length = data.length := by
  simp [sma]

@[simp] theorem length_wma (data : List α) (length : Nat) :
    (wma data length).length = data.length := by
  simp [wma]

@[simp] theorem length_ema (data : List α) (length : Nat) :
    (ema data length).length = data.length := by
  cases data <;> simp [ema]

@[simp] theorem length_macdLine (data : List α) (fast slow : Nat) :
    (macdLine data fast slow).length = data.length := by
  simp [macdLine]

end ChartScript.Series
