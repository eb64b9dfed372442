/-
Indicators of the trading range: the average true range and the stochastic
oscillator.

These read three series side by side, and are as long as the shortest of them.
-/
import ChartScript.Series.Average

namespace ChartScript.Series

open Scalar

variable {α : Type} [Scalar α]

/-- The true range of one bar: its own range, or its distance from the close before
it if that is farther. -/
def barRange (previous : Option α) (high low : α) : α :=
  match previous with
  | none => high - low
  | some close => larger (larger (high - low) (abs (high - close))) (abs (low - close))

/-- The true range of each bar, where `previous` is the close before the first. -/
def trueRangeFrom (previous : Option α) : List α → List α → List α → List α
  | high :: highs, low :: lows, close :: closes =>
      barRange previous high low :: trueRangeFrom (some close) highs lows closes
  | _, _, _ => []

/-- The true range of each bar. -/
def trueRange (high low close : List α) : List α :=
  trueRangeFrom none high low close

/-- The exponential average of the true range. -/
def atr (high low close : List α) (length : Nat) : List α :=
  ema (trueRange high low close) length

/-- Where a close stands between the smallest low and the largest high of a window,
from 0 to 100; in the middle when there is no distance between these. -/
def standing (highs lows : List α) (close : α) : α :=
  let highest := largest highs
  let lowest := smallest lows
  let range := highest - lowest
  if lt (ofNat 0) range then (close - lowest) / range * ofNat 100 else ofNat 50

/-- The %K line. -/
def stochasticK (high low close : List α) (length : Nat) : List α :=
  List.zipWith
    (fun (windows : Option (List α) × Option (List α)) close =>
      match windows with
      | (some highs, some lows) => standing highs lows close
      | _ => undefined)
    ((windows length high).zip (windows length low)) close

/-- The %D line: the mean of the last %K values. -/
def stochastic (high low close : List α) (kLength dLength : Nat) : List α :=
  sma (stochasticK high low close kLength) dLength

@[simp] theorem length_trueRangeFrom (previous : Option α) (high low close : List α) :
    (trueRangeFrom previous high low close).length =
      Nat.min (Nat.min high.length low.length) close.length := by
  induction high generalizing previous low close with
  | nil => simp [trueRangeFrom]
  | cons h hs ih =>
      cases low <;> cases close <;> simp [trueRangeFrom, Nat.min_def]
      simp only [ih, Nat.min_def]
      split <;> split <;> split <;> omega

@[simp] theorem length_trueRange (high low close : List α) :
    (trueRange high low close).length =
      Nat.min (Nat.min high.length low.length) close.length :=
  length_trueRangeFrom none high low close

@[simp] theorem length_atr (high low close : List α) (length : Nat) :
    (atr high low close length).length =
      Nat.min (Nat.min high.length low.length) close.length := by
  simp [atr]

@[simp] theorem length_stochasticK (high low close : List α) (length : Nat) :
    (stochasticK high low close length).length =
      Nat.min (Nat.min high.length low.length) close.length := by
  simp [stochasticK]

@[simp] theorem length_stochastic (high low close : List α) (kLength dLength : Nat) :
    (stochastic high low close kLength dLength).length =
      Nat.min (Nat.min high.length low.length) close.length := by
  simp [stochastic]

end ChartScript.Series
