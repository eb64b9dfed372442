/-
Windows: the last few values up to each index.

An indicator with a length looks back that many values from each index, the index
included.  Where there are not that many values yet the window does not exist, and a
window of length zero never does.  A window lists its values latest first, which is
also the order in which sums over it are taken.
-/
import ChartScript.Scalar

namespace ChartScript.Series

variable {α : Type}

/-- The windows of length `n` at each index of a series, where `before` holds the
values in front of it, latest first. -/
def windowsFrom (n : Nat) (before : List α) : List α → List (Option (List α))
  | [] => []
  | x :: xs =>
      (if n ≠ 0 ∧ n ≤ (x :: before).length then some ((x :: before).take n) else none) ::
        windowsFrom n (x :: before) xs

/-- The window of length `n` at each index of a series, if it exists. -/
def windows (n : Nat) (data : List α) : List (Option (List α)) :=
  windowsFrom n [] data

/-- The value of `f` on the window at each index, undefined where there is none. -/
def overWindows [Scalar α] (n : Nat) (f : List α → α) (data : List α) : List α :=
  (windows n data).map fun
    | some window => f window
    | none => Scalar.undefined

@[simp] theorem length_windowsFrom (n : Nat) (before data : List α) :
    (windowsFrom n before data).length = data.length := by
  induction data generalizing before with
  | nil => rfl
  | cons x xs ih => simp [windowsFrom, ih]

/-- There is one window for each index. -/
@[simp] theorem length_windows (n : Nat) (data : List α) :
    (windows n data).length = data.length :=
  length_windowsFrom n [] data

@[simp] theorem length_overWindows [Scalar α] (n : Nat) (f : List α → α) (data : List α) :
    (overWindows n f data).length = data.length := by
  simp [overWindows]

end ChartScript.Series
