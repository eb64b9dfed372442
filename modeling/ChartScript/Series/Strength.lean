/-
The relative strength index.

The changes from each value to the next are split into gains and losses.  Their
averages start as plain means over the first `length` changes and are smoothed from
there on, each new change counting once and the average so far `length - 1` times.
The index is 100 less 100 over one plus gain per loss, and 100 where there is no
loss.
-/
import ChartScript.Scalar

namespace ChartScript.Series

open Scalar

variable {α : Type} [Scalar α]

/-- The running averages of gains and of losses. -/
structure Momentum (α : Type) where
  gain : α
  loss : α

namespace Momentum

/-- Add one of the first changes.  A change that is not a gain counts as a loss, so
one that is undefined makes the loss undefined. -/
def add (m : Momentum α) (change : α) : Momentum α :=
  if lt (ofNat 0) change then { m with gain := m.gain + change }
  else { m with loss := m.loss + abs change }

/-- The plain means over the first changes. -/
def seed (changes : List α) (length : Nat) : Momentum α :=
  let sums : Momentum α := changes.foldl add ⟨ofNat 0, ofNat 0⟩
  ⟨sums.gain / ofNat length, sums.loss / ofNat length⟩

/-- Smooth a later change in. -/
def smooth (length : Nat) (m : Momentum α) (change : α) : Momentum α :=
  let gain := if lt (ofNat 0) change then change else ofNat 0
  let loss := if lt change (ofNat 0) then abs change else ofNat 0
  let n : α := ofNat length
  ⟨(m.gain * (n - ofNat 1) + gain) / n, (m.loss * (n - ofNat 1) + loss) / n⟩

/-- The index that the averages give. -/
def index (m : Momentum α) : α :=
  if isZero m.loss then ofNat 100
  else ofNat 100 - ofNat 100 / (ofNat 1 + m.gain / m.loss)

end Momentum

/-- The change from each value to the next. -/
def changes (data : List α) : List α :=
  List.zipWith (· - ·) (data.drop 1) data

/-- The relative strength index, undefined below index `length`. -/
def rsi (data : List α) (length : Nat) : List α :=
  if length = 0 ∨ data.length ≤ length then List.replicate data.length undefined
  else
    let steps := changes data
    let seed := Momentum.seed (steps.take length) length
    List.replicate length undefined ++
      ((steps.drop length).scanl (Momentum.smooth length) seed).map Momentum.index

@[simp] theorem length_changes (data : List α) : (changes data).length = data.length - 1 := by
  simp only [changes, List.length_zipWith, List.length_drop]
  omega

@[simp] theorem length_rsi (data : List α) (length : Nat) :
    (rsi data length).length = data.length := by
  simp only [rsi]
  split
  · simp
  · simp only [List.length_append, List.length_replicate, List.length_map, List.length_scanl,
      List.length_drop, length_changes]
    omega

end ChartScript.Series
