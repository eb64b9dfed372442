/-
No indicator looks ahead.

A transform of series is causal when its value at an index depends on no later value of
what it reads.  Here that is an equation: the transform of the first `n` values is the
first `n` values of the transform.  Windows reach back only, the exponential average and
the strength index carry a state forward, and what is put together from these looks ahead
no more than its parts do.

The strength index is the one transform that asks how long the data are.  Data of at most
`length` values are undefined throughout, which is what the first values of longer data are
as well.
-/
import ChartScript.Series.Range
import ChartScript.Series.Strength

namespace ChartScript.Series

open Scalar

variable {α : Type}

/-! ### Windows -/

theorem windowsFrom_take (length : Nat) (before data : List α) (n : Nat) :
    windowsFrom length before (data.take n) = (windowsFrom length before data).take n := by
  induction data generalizing before n with
  | nil => simp [windowsFrom]
  | cons x rest ih =>
      cases n with
      | zero => rfl
      | succ n => simp only [List.take_succ_cons, windowsFrom, ih]

theorem windows_take (length : Nat) (data : List α) (n : Nat) :
    windows length (data.take n) = (windows length data).take n :=
  windowsFrom_take length [] data n

variable [Scalar α]

theorem overWindows_take (length : Nat) (f : List α → α) (data : List α) (n : Nat) :
    overWindows length f (data.take n) = (overWindows length f data).take n := by
  unfold overWindows
  rw [windows_take, List.map_take]

/-! ### Averages -/

theorem sma_take (data : List α) (length n : Nat) :
    sma (data.take n) length = (sma data length).take n :=
  overWindows_take length _ data n

theorem wma_take (data : List α) (length n : Nat) :
    wma (data.take n) length = (wma data length).take n :=
  overWindows_take length _ data n

theorem ema_take (data : List α) (length n : Nat) :
    ema (data.take n) length = (ema data length).take n := by
  cases data with
  | nil => simp [ema]
  | cons seed later =>
      cases n with
      | zero => rfl
      | succ n => exact (List.take_scanl seed later n).symm

theorem macdLine_take (data : List α) (fast slow n : Nat) :
    macdLine (data.take n) fast slow = (macdLine data fast slow).take n := by
  unfold macdLine
  rw [ema_take, ema_take, List.take_zipWith]

/-! ### The strength index -/

/-- The changes within the first values are one fewer. -/
theorem changes_take (data : List α) (n : Nat) :
    changes (data.take (n + 1)) = (changes data).take n := by
  unfold changes
  rw [List.take_zipWith, List.drop_take, Nat.add_sub_cancel]
  refine List.ext_getElem? fun i => ?_
  simp only [List.getElem?_zipWith, List.getElem?_take]
  by_cases h : i < n
  · simp [h, Nat.lt_succ_of_lt h]
  · simp [h]

/-- Too few values leave the index undefined throughout. -/
theorem rsi_of_short {data : List α} {length : Nat} (h : length = 0 ∨ data.length ≤ length) :
    rsi data length = List.replicate data.length undefined := by
  unfold rsi
  rw [if_pos h]

/-- Enough values define it from index `length` on. -/
theorem rsi_of_long {data : List α} {length : Nat} (h : ¬(length = 0 ∨ data.length ≤ length)) :
    rsi data length = List.replicate length undefined ++
      (((changes data).drop length).scanl (Momentum.smooth length)
        (Momentum.seed ((changes data).take length) length)).map Momentum.index := by
  unfold rsi
  rw [if_neg h]

theorem rsi_take (data : List α) (length n : Nat) :
    rsi (data.take n) length = (rsi data length).take n := by
  have hlen : (data.take n).length = min n data.length := List.length_take
  by_cases hshort : length = 0 ∨ data.length ≤ length
  · rw [rsi_of_short hshort, rsi_of_short (by omega), List.take_replicate, hlen]
  · by_cases hn : n ≤ length
    · -- The first values end before anything is defined.
      rw [rsi_of_long hshort, rsi_of_short (by omega),
        List.take_append_of_le_length (by rw [List.length_replicate]; exact hn),
        List.take_replicate, hlen]
      congr 1
      omega
    · obtain ⟨m, rfl⟩ : ∃ m, n = length + m + 1 := ⟨n - length - 1, by omega⟩
      have hseed : ((changes data).take (length + m)).take length = (changes data).take length := by
        rw [List.take_take, Nat.min_eq_left (Nat.le_add_right length m)]
      have hlater : ((changes data).take (length + m)).drop length =
          ((changes data).drop length).take m := by
        rw [List.drop_take, Nat.add_sub_cancel_left]
      have hwarm : (List.replicate length (undefined : α)).take (length + m + 1) =
          List.replicate length undefined :=
        List.take_of_length_le (by rw [List.length_replicate]; omega)
      have hrest : length + m + 1 - (List.replicate length (undefined : α)).length = m + 1 := by
        rw [List.length_replicate]
        omega
      rw [rsi_of_long hshort, rsi_of_long (by omega), changes_take, hseed, hlater,
        List.take_append, hwarm, hrest, ← List.map_take, List.take_scanl]

/-! ### Ranges -/

theorem trueRangeFrom_take (previous : Option α) (high low close : List α) (n : Nat) :
    trueRangeFrom previous (high.take n) (low.take n) (close.take n) =
      (trueRangeFrom previous high low close).take n := by
  induction high generalizing previous low close n with
  | nil => simp [trueRangeFrom]
  | cons h highs ih =>
      cases n with
      | zero => simp [trueRangeFrom]
      | succ n =>
          cases low with
          | nil => simp [trueRangeFrom]
          | cons l lows =>
              cases close with
              | nil => simp [trueRangeFrom]
              | cons c closes => simp only [List.take_succ_cons, trueRangeFrom, ih]

theorem atr_take (high low close : List α) (length n : Nat) :
    atr (high.take n) (low.take n) (close.take n) length = (atr high low close length).take n := by
  unfold atr trueRange
  rw [trueRangeFrom_take, ema_take]

theorem stochasticK_take (high low close : List α) (length n : Nat) :
    stochasticK (high.take n) (low.take n) (close.take n) length =
      (stochasticK high low close length).take n := by
  unfold stochasticK
  rw [List.take_zipWith, windows_take, windows_take, List.zip_eq_zipWith, List.zip_eq_zipWith,
    List.take_zipWith]

theorem stochastic_take (high low close : List α) (kLength dLength n : Nat) :
    stochastic (high.take n) (low.take n) (close.take n) kLength dLength =
      (stochastic high low close kLength dLength).take n := by
  unfold stochastic
  rw [stochasticK_take, sma_take]

end ChartScript.Series
