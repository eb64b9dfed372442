/-
Windowed indicators forget.

What stands in front of a window has no part in its value: there is no running sum that would
carry an old value on, nor its rounding error, nor an undefined one.  So data behind any other
values have the same averages as the data alone, from the first full window on, and the same
stochastic oscillator from where both of its windows are full.

One series resumes another if it ends with what the other has from some index on.  A windowed
indicator of two such series gives two such series again, only later by a window, and the
oscillator puts two of these together.  Nothing is assumed of the arithmetic, so over
floating-point numbers the values are the same to the bit, whatever stands in front.
-/
import Mathlib
import ChartScript.Proofs.Series.Index

namespace ChartScript.Series

variable {α : Type}

/-! ### Series that resume another -/

/-- The first series has so many values more in front, and behind them it has from index `start`
on the values of the second. -/
structure Resumes (shift start : Nat) (xs ys : List α) : Prop where
  length : xs.length = shift + ys.length
  agrees : ∀ j, start ≤ j → xs[shift + j]? = ys[j]?

theorem resumes_append {front : List α} {shift : Nat} (hshift : front.length = shift)
    (data : List α) : Resumes shift 0 (front ++ data) data := by
  subst hshift
  refine ⟨List.length_append, ?_⟩
  intro j _
  rw [List.getElem?_append_right (Nat.le_add_right _ _), Nat.add_sub_cancel_left]

namespace Resumes

variable {shift start : Nat}

/-- A window that starts where the series agree has the same values in both. -/
theorem lastValues_eq {xs ys : List α} (h : Resumes shift start xs ys) {n i : Nat}
    (hi : i < ys.length) (hfull : start + n ≤ i + 1) :
    lastValues n xs (shift + i) = lastValues n ys i := by
  have hlength := h.length
  apply List.ext_getElem?
  intro j
  by_cases hj : j < n
  · rw [getElem?_lastValues (by omega) hj (by omega), getElem?_lastValues hi hj (by omega),
      Nat.add_sub_assoc (by omega), h.agrees (i - j) (by omega)]
  · have hleft : (lastValues n xs (shift + i)).length = n :=
      length_lastValues (by omega) (by omega)
    have hright : (lastValues n ys i).length = n := length_lastValues hi (by omega)
    rw [List.getElem?_eq_none (by omega), List.getElem?_eq_none (by omega)]

variable [Scalar α]

/-- What is computed over windows resumes once the first window behind `start` is full. -/
theorem overWindows {xs ys : List α} (h : Resumes shift start xs ys) {n : Nat} (hn : 0 < n)
    (f : List α → α) :
    Resumes shift (start + n - 1) (overWindows n f xs) (overWindows n f ys) := by
  have hlength := h.length
  refine ⟨by rw [length_overWindows, length_overWindows, hlength], ?_⟩
  intro j hj
  by_cases hinside : j < ys.length
  · rw [getElem?_overWindows hn f xs (by omega), getElem?_overWindows hn f ys hinside,
      if_neg (by omega), if_neg (by omega), h.lastValues_eq hinside (by omega)]
  · rw [List.getElem?_eq_none (by rw [length_overWindows]; omega),
      List.getElem?_eq_none (by rw [length_overWindows]; omega)]

/-- The %K line resumes where both of its windows do. -/
theorem stochasticK {highs high lows low closes close : List α}
    (hhigh : Resumes shift start highs high) (hlow : Resumes shift start lows low)
    (hclose : Resumes shift start closes close) {n : Nat} (hn : 0 < n) :
    Resumes shift (start + n - 1) (stochasticK highs lows closes n)
      (stochasticK high low close n) := by
  have hhighs := hhigh.length
  have hlows := hlow.length
  have hcloses := hclose.length
  have hlong : (Series.stochasticK highs lows closes n).length =
      min (min highs.length lows.length) closes.length := length_stochasticK highs lows closes n
  have hshort : (Series.stochasticK high low close n).length =
      min (min high.length low.length) close.length := length_stochasticK high low close n
  refine ⟨by omega, ?_⟩
  intro j hj
  by_cases hinside : j < high.length ∧ j < low.length ∧ j < close.length
  · obtain ⟨hjhigh, hjlow, hjclose⟩ := hinside
    have hlast : close[j]? = some close[j] := List.getElem?_eq_getElem hjclose
    have hsame : closes[shift + j]? = some close[j] := by
      rw [hclose.agrees j (by omega), hlast]
    rw [getElem?_stochasticK hn (by omega) (by omega) hsame,
      getElem?_stochasticK hn hjhigh hjlow hlast, if_neg (by omega), if_neg (by omega),
      hhigh.lastValues_eq hjhigh (by omega), hlow.lastValues_eq hjlow (by omega)]
  · rw [List.getElem?_eq_none (by omega), List.getElem?_eq_none (by omega)]

end Resumes

/-! ### No memory -/

variable [Scalar α]

/-- **Behind any other values, data have the windowed indicators that they have alone**, from the
first full window on. -/
theorem windowed_indicators_have_no_memory :
    (∀ (front data : List α) (n i : Nat), 0 < n → n ≤ i + 1 →
      (sma (front ++ data) n)[front.length + i]? = (sma data n)[i]? ∧
      (wma (front ++ data) n)[front.length + i]? = (wma data n)[i]?) ∧
    (∀ (highFront lowFront closeFront high low close : List α) (k d i : Nat),
      lowFront.length = highFront.length → closeFront.length = highFront.length →
      0 < k → 0 < d →
      (k ≤ i + 1 →
        (stochasticK (highFront ++ high) (lowFront ++ low) (closeFront ++ close)
            k)[highFront.length + i]? =
          (stochasticK high low close k)[i]?) ∧
      (k + d ≤ i + 2 →
        (stochastic (highFront ++ high) (lowFront ++ low) (closeFront ++ close)
            k d)[highFront.length + i]? =
          (stochastic high low close k d)[i]?)) := by
  refine ⟨?_, ?_⟩
  · intro front data n i hn hfull
    have hdata : Resumes front.length 0 (front ++ data) data := resumes_append rfl data
    exact ⟨(hdata.overWindows hn _).agrees i (by omega),
      (hdata.overWindows hn _).agrees i (by omega)⟩
  · intro highFront lowFront closeFront high low close k d i hlow hclose hk hd
    have hline := Resumes.stochasticK (resumes_append rfl high) (resumes_append hlow low)
      (resumes_append hclose close) hk
    refine ⟨?_, ?_⟩
    · intro hfull
      exact hline.agrees i (by omega)
    · intro hfull
      exact (hline.overWindows hd _).agrees i (by omega)

/-- An undefined and an infinite price in front of three bars are forgotten: behind them the
averages over two bars and the oscillator are those of the three bars alone. -/
theorem no_memory_of_infinite_prices :
    let front : List Float := [Scalar.undefined, 1 / 0]
    let data : List Float := [1, 2, 4]
    ((sma (front ++ data) 2)[3]? = (sma data 2)[1]? ∧ (sma data 2)[1]? = some 1.5) ∧
      (wma (front ++ data) 2)[3]? = (wma data 2)[1]? ∧
      (stochasticK (front ++ data) (front ++ data) (front ++ data) 2)[3]? =
        (stochasticK data data data 2)[1]? ∧
      (stochastic (front ++ data) (front ++ data) (front ++ data) 2 2)[4]? =
        (stochastic data data data 2 2)[2]? ∧
      (stochastic data data data 2 2)[2]? = some 100 := by
  intro front data
  obtain ⟨haverages, hoscillator⟩ := windowed_indicators_have_no_memory (α := Float)
  obtain ⟨hsma, hwma⟩ := haverages front data 2 1 (by decide) (by decide)
  obtain ⟨hline, -⟩ := hoscillator front front front data data data 2 2 1 rfl rfl (by decide)
    (by decide)
  obtain ⟨-, hsmoothed⟩ := hoscillator front front front data data data 2 2 2 rfl rfl (by decide)
    (by decide)
  exact ⟨⟨hsma, by decide +kernel⟩, hwma, hline (by decide), hsmoothed (by decide),
    by decide +kernel⟩

end ChartScript.Series
