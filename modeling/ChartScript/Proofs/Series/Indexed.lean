/-
The indicators by index.

A machine computes an indicator index by index: it reads the series at places that it counts
itself, and it counts in words.  There a place may lie outside the series, a sum of places may not
fit into a word, and a difference may be below zero.  Here each indicator is written that way, and
each such fault ends the computation.

None ever does, whatever the series hold, however long each of them is, and whatever the lengths
are: the guards at the front of each loop keep every place inside.  A window is only read where it
is full, so nothing is subtracted from an index that is smaller; the strength index only goes on
where there are more values than its length, so a length with one more added still counts values;
and a series that a machine can hold has no index that is the largest word.  What comes out is the
indicator.

A length of zero, and one that no window can have, leave a windowed indicator undefined.  For the
%D line this includes a %K line of undefined values, whose mean is undefined since no sum with an
undefined value is a number.
-/
import Mathlib
import ChartScript.Indicator.Decode
import ChartScript.Proofs.Arithmetic.Substitution
import ChartScript.Proofs.Series.Index

namespace ChartScript.Series

open Scalar

variable {α : Type}

/-! ### Counting in words -/

/-- What can be wrong with a place in a series. -/
inductive IndexFault where
  /-- A sum that no word holds. -/
  | tooLarge
  /-- A difference below zero. -/
  | belowZero
  /-- A place outside the series. -/
  | outside
deriving DecidableEq, Repr

/-- A series whose indices are words, as every series in a machine is. -/
def Addressable (data : List α) : Prop :=
  data.length ≤ Indicator.maxLength

instance (data : List α) : Decidable (Addressable data) :=
  inferInstanceAs (Decidable (data.length ≤ Indicator.maxLength))

namespace Indexed

/-- What counting in words comes to, unless a fault ends it. -/
abbrev Counted (α : Type) := Except IndexFault α

def add (i j : Nat) : Counted Nat :=
  if i + j ≤ Indicator.maxLength then .ok (i + j) else .error .tooLarge

def sub (i j : Nat) : Counted Nat :=
  if j ≤ i then .ok (i - j) else .error .belowZero

/-- The value at an index. -/
def read (data : List α) (i : Nat) : Counted α :=
  match data[i]? with
  | some x => .ok x
  | none => .error .outside

/-- Put a value at an index. -/
def write (data : List α) (i : Nat) (x : α) : Counted (List α) :=
  if i < data.length then .ok (data.set i x) else .error .outside

/-- The values below an index. -/
def below (data : List α) (i : Nat) : Counted (List α) :=
  if i ≤ data.length then .ok (data.take i) else .error .outside

/-- The values from an index on. -/
def onward (data : List α) (i : Nat) : Counted (List α) :=
  if i ≤ data.length then .ok (data.drop i) else .error .outside

@[simp] theorem ok_bind {β γ : Type} (x : β) (f : β → Counted γ) : (.ok x >>= f) = f x := rfl

theorem add_one_of_lt {data : List α} (hdata : Addressable data) {i : Nat}
    (hi : i < data.length) : add i 1 = .ok (i + 1) :=
  if_pos (Nat.le_trans hi hdata)

theorem sub_of_le {i j : Nat} (h : j ≤ i) : sub i j = .ok (i - j) := if_pos h

theorem read_of_getElem? {data : List α} {i : Nat} {x : α} (h : data[i]? = some x) :
    read data i = .ok x := by
  rw [read, h]

theorem write_of_lt {data : List α} {i : Nat} (h : i < data.length) (x : α) :
    write data i x = .ok (data.set i x) := if_pos h

theorem mapM_eq_ok {β γ : Type} {f : β → Counted γ} {xs : List β} {ys : List γ}
    (h : List.Forall₂ (fun x y => f x = .ok y) xs ys) : xs.mapM f = .ok ys := by
  induction h with
  | nil => rfl
  | cons hfirst _ ih =>
      rw [List.mapM_cons, hfirst, ok_bind, ih]
      rfl

/-- A loop over indices gives a list if each of its steps gives the value there. -/
theorem mapM_range_eq_ok {γ : Type} {f : Nat → Counted γ} {count : Nat} {ys : List γ}
    (hlength : ys.length = count) (h : ∀ i y, ys[i]? = some y → f i = .ok y) :
    (List.range count).mapM f = .ok ys := by
  apply mapM_eq_ok
  rw [List.forall₂_iff_get]
  refine ⟨by rw [List.length_range, hlength], ?_⟩
  intro i hi hys
  rw [List.get_eq_getElem, List.get_eq_getElem, List.getElem_range]
  exact h i _ (List.getElem?_eq_getElem hys)

/-! ### Windows by index -/

/-- Whether there is no window of some length at an index.  Where the length is zero, nothing is
counted. -/
def lacksWindow (length i : Nat) : Counted Bool :=
  if length = 0 then .ok true
  else do return decide ((← add i 1) < length)

/-- The window at an index, read from there backwards. -/
def window (data : List α) (length i : Nat) : Counted (List α) :=
  (List.range length).mapM fun j => do read data (← sub i j)

theorem lacksWindow_eq {data : List α} (hdata : Addressable data) (length : Nat) {i : Nat}
    (hi : i < data.length) :
    lacksWindow length i = .ok (decide (length = 0 ∨ i + 1 < length)) := by
  unfold lacksWindow
  by_cases hzero : length = 0
  · rw [if_pos hzero, decide_eq_true (Or.inl hzero)]
  · rw [if_neg hzero, add_one_of_lt hdata hi, ok_bind]
    exact congrArg Except.ok (decide_eq_decide.mpr (or_iff_right hzero).symm)

/-- A full window has no index below zero. -/
theorem window_eq {data : List α} {length i : Nat} (hi : i < data.length)
    (hfull : length ≤ i + 1) : window data length i = .ok (lastValues length data i) := by
  have hlength := length_lastValues hi hfull
  apply mapM_range_eq_ok hlength
  intro j x hx
  have hj : j < length := hlength ▸ (List.getElem?_eq_some_iff.mp hx).1
  rw [getElem?_lastValues hi hj (by omega)] at hx
  rw [sub_of_le (by omega), ok_bind, read_of_getElem? hx]

/-- Read too early, a window would begin below zero. -/
example : window ["first", "second"] 3 1 = .error .belowZero := rfl

/-! ### The indicators by index -/

variable [Scalar α]

/-- The values at so many indices, undefined where there is no window. -/
def overIndices (count length : Nat) (valueAt : Nat → Counted α) : Counted (List α) :=
  (List.range count).mapM fun i => do
    if ← lacksWindow length i then return undefined else valueAt i

/-- How many indices three series share. -/
def sharedLength (high low close : List α) : Nat :=
  min (min high.length low.length) close.length

def sma (data : List α) (length : Nat) : Counted (List α) :=
  overIndices data.length length fun i => do
    return (← window data length i).foldl (· + ·) (ofNat 0) / ofNat length

def wma (data : List α) (length : Nat) : Counted (List α) :=
  let n : α := ofNat length
  let divisor := n * (n + ofNat 1) / ofNat 2
  overIndices data.length length fun i => do
    let terms ← (List.range length).mapM fun j => do
      let x ← read data (← sub i j)
      return x * ofNat (← sub length j)
    return terms.foldl (· + ·) (ofNat 0) / divisor

def ema (data : List α) (length : Nat) : Counted (List α) :=
  match data.head? with
  | none => .ok []
  | some seed => do return (← onward data 1).scanl (mix (emaShare length)) seed

def macdLine (data : List α) (fast slow : Nat) : Counted (List α) := do
  return List.zipWith (· - ·) (← ema data fast) (← ema data slow)

/-- The change between two neighbours. -/
def change (pair : List α) : Counted α := do
  return (← read pair 1) - (← read pair 0)

/-- Smooth the change in front of an index in, and put the strength index there. -/
def smoothAt (steps : List α) (length : Nat) (state : Momentum α × List α) (i : Nat) :
    Counted (Momentum α × List α) := do
  let averages := state.1.smooth length (← read steps (← sub i 1))
  let values ← write state.2 i averages.index
  return (averages, values)

/-- From the second index on that has a strength index there may be none left. -/
def rsi (data : List α) (length : Nat) : Counted (List α) := do
  let blank := List.replicate data.length undefined
  if length = 0 ∨ data.length ≤ length then return blank
  let steps ← (List.zipWith (fun x y => [x, y]) data (data.drop 1)).mapM change
  let seed := Momentum.seed (← below steps length) length
  let started ← write blank length seed.index
  let second ← add length 1
  let (_, values) ← (List.range' second (data.length - second)).foldlM (smoothAt steps length)
    (seed, started)
  return values

def trueRange (high low close : List α) : Counted (List α) :=
  (List.range (sharedLength high low close)).mapM fun i => do
    let h ← read high i
    let l ← read low i
    if i = 0 then return barRange none h l
    else return barRange (some (← read close (← sub i 1))) h l

def atr (high low close : List α) (length : Nat) : Counted (List α) := do
  ema (← trueRange high low close) length

def stochasticK (high low close : List α) (length : Nat) : Counted (List α) :=
  overIndices (sharedLength high low close) length fun i => do
    return standing (← window high length i) (← window low length i) (← read close i)

def stochastic (high low close : List α) (kLength dLength : Nat) : Counted (List α) := do
  sma (← stochasticK high low close kLength) dLength

/-! ### Windowed values -/

/-- Values by index are a series if the windows that are full give its values, and the series is
undefined elsewhere. -/
theorem overIndices_eq {data : List α} (hdata : Addressable data) {count length : Nat}
    (hcount : count ≤ data.length) {valueAt : Nat → Counted α} {values : List α}
    (hlength : values.length = count)
    (hearly : ∀ i < count, length = 0 ∨ i + 1 < length → values[i]? = some undefined)
    (hfull : ∀ i < count, 0 < length → length ≤ i + 1 →
      ∃ x, valueAt i = .ok x ∧ values[i]? = some x) :
    overIndices count length valueAt = .ok values := by
  apply mapM_range_eq_ok hlength
  intro i x hx
  have hi : i < count := hlength ▸ (List.getElem?_eq_some_iff.mp hx).1
  rw [lacksWindow_eq hdata length (Nat.lt_of_lt_of_le hi hcount), ok_bind]
  by_cases hlacks : length = 0 ∨ i + 1 < length
  · rw [hearly i hi hlacks] at hx
    rw [decide_eq_true hlacks, if_pos rfl, Option.some.inj hx]
    rfl
  · obtain ⟨y, hy, hsame⟩ := hfull i hi (by omega) (by omega)
    rw [hx] at hsame
    rw [decide_eq_false hlacks, if_neg Bool.false_ne_true, hy, Option.some.inj hsame]

theorem overIndices_eq_overWindows {data : List α} (hdata : Addressable data) {length : Nat}
    {valueAt : Nat → Counted α} {f : List α → α}
    (h : ∀ i < data.length, 0 < length → length ≤ i + 1 →
      valueAt i = .ok (f (lastValues length data i))) :
    overIndices data.length length valueAt = .ok (overWindows length f data) := by
  apply overIndices_eq hdata (le_refl _) (length_overWindows length f data)
  · intro i hi hlacks
    exact getElem?_overWindows_of_lacks f hi hlacks
  · intro i hi hlength hfull
    refine ⟨_, h i hi hlength hfull, ?_⟩
    rw [getElem?_overWindows hlength f data hi, if_neg (by omega)]

/-! ### Averages -/

theorem sma_eq {data : List α} (hdata : Addressable data) (length : Nat) :
    sma data length = .ok (Series.sma data length) := by
  apply overIndices_eq_overWindows hdata
  intro i hi _ hfull
  rw [window_eq hi hfull]
  rfl

/-- The terms of a weighted sum, and then their sum. -/
theorem weightedSum_eq (weight : Nat) (sum : α) (xs : List α) :
    weightedSum weight sum xs =
      (xs.mapIdx fun j x => x * ofNat (weight - j)).foldl (· + ·) sum := by
  induction xs generalizing weight sum with
  | nil => rfl
  | cons x rest ih =>
      have hshift : (fun j y => (y * ofNat (weight - (j + 1)) : α)) =
          fun j y => y * ofNat (weight - 1 - j) := by
        funext j y
        rw [Nat.sub_sub, Nat.add_comm 1 j]
      rw [weightedSum, ih, List.mapIdx_cons, List.foldl_cons, hshift, Nat.sub_zero]

theorem wma_eq {data : List α} (hdata : Addressable data) (length : Nat) :
    wma data length = .ok (Series.wma data length) := by
  apply overIndices_eq_overWindows hdata
  intro i hi _ hfull
  have hlength := length_lastValues hi hfull
  have hterms : ((List.range length).mapM fun j => do
      let x ← read data (← sub i j)
      return x * ofNat (← sub length j)) =
        .ok ((lastValues length data i).mapIdx fun j x => x * ofNat (length - j)) := by
    apply mapM_range_eq_ok (by rw [List.length_mapIdx, hlength])
    intro j y hy
    have hj : j < length := by
      have hlt := (List.getElem?_eq_some_iff.mp hy).1
      rwa [List.length_mapIdx, hlength] at hlt
    rw [List.getElem?_mapIdx, getElem?_lastValues hi hj (by omega)] at hy
    obtain ⟨x, hx, rfl⟩ := Option.map_eq_some_iff.mp hy
    rw [sub_of_le (by omega), ok_bind, read_of_getElem? hx, ok_bind, sub_of_le hj.le]
    rfl
  rw [hterms, weightedSum_eq]
  rfl

theorem ema_eq (data : List α) (length : Nat) : ema data length = .ok (Series.ema data length) := by
  cases data with
  | nil => rfl
  | cons seed later =>
      have honward : onward (seed :: later) 1 = .ok later := if_pos (by simp)
      rw [ema, List.head?_cons]
      show (do return (← onward (seed :: later) 1).scanl (mix (emaShare length)) seed) = _
      rw [honward]
      rfl

theorem macdLine_eq (data : List α) (fast slow : Nat) :
    macdLine data fast slow = .ok (Series.macdLine data fast slow) := by
  rw [macdLine, ema_eq, ema_eq]
  rfl

/-! ### The strength index -/

theorem changes_eq (data : List α) :
    (List.zipWith (fun x y => [x, y]) data (data.drop 1)).mapM change = .ok (changes data) := by
  apply mapM_eq_ok
  rw [List.forall₂_iff_get]
  have hlength : (changes data).length = data.length - 1 := length_changes data
  refine ⟨by simp only [List.length_zipWith, List.length_drop, hlength]; omega, ?_⟩
  intro i _ hi
  simp only [List.get_eq_getElem, List.getElem_zipWith, changes]
  rfl

/-- One step of the loop writes the next index, and leaves the rest as it is. -/
theorem smoothAt_eq (length : Nat) {before front rest : List α}
    (hlength : before.length = front.length) (m : Momentum α) (x : α) :
    smoothAt (before ++ x :: rest) length
        (m, front ++ m.index :: List.replicate (rest.length + 1) undefined) (front.length + 1) =
      .ok (m.smooth length x, (front ++ [m.index]) ++
        (m.smooth length x).index :: List.replicate rest.length undefined) := by
  have hread : read (before ++ x :: rest) front.length = .ok x := by
    apply read_of_getElem?
    rw [← hlength, List.getElem?_append_right (le_refl _), Nat.sub_self]
    rfl
  have hinside : front.length + 1 <
      (front ++ m.index :: List.replicate (rest.length + 1) undefined).length := by
    rw [List.length_append, List.length_cons, List.length_replicate]
    omega
  rw [smoothAt, sub_of_le (Nat.le_add_left 1 _), Nat.add_sub_cancel, ok_bind, hread, ok_bind]
  dsimp only
  rw [write_of_lt hinside, ok_bind, List.set_append_right _ _ (Nat.le_add_right _ _),
    Nat.add_sub_cancel_left, List.replicate_succ]
  simp [pure, Except.pure]

/-- What the loop writes behind some values, with `m` the averages of the last of them. -/
theorem foldlM_smoothAt (length : Nat) (later : List α) :
    ∀ (before front : List α) (m : Momentum α), before.length = front.length →
      ∃ final, (List.range' (front.length + 1) later.length).foldlM
        (smoothAt (before ++ later) length)
        (m, front ++ m.index :: List.replicate later.length undefined) =
          .ok (final, front ++ (later.scanl (Momentum.smooth length) m).map Momentum.index) := by
  induction later with
  | nil =>
      intro before front m _
      exact ⟨m, by rw [List.scanl_nil]; rfl⟩
  | cons x rest ih =>
      intro before front m hlength
      obtain ⟨final, hfinal⟩ := ih (before ++ [x]) (front ++ [m.index]) (m.smooth length x)
        (by simp [hlength])
      refine ⟨final, ?_⟩
      rw [List.length_cons, List.range'_succ, List.foldlM_cons, smoothAt_eq length hlength, ok_bind]
      simpa [List.scanl_cons, Momentum.smooth] using hfinal

theorem rsi_eq {data : List α} (hdata : Addressable data) (length : Nat) :
    rsi data length = .ok (Series.rsi data length) := by
  unfold rsi
  by_cases hshort : length = 0 ∨ data.length ≤ length
  · rw [if_pos hshort, rsi_of_short hshort]
    rfl
  · have hlong : length < data.length := by omega
    have hsteps : (changes data).length = data.length - 1 := length_changes data
    have hbelow : below (changes data) length = .ok ((changes data).take length) :=
      if_pos (by omega)
    have hblank : length < (List.replicate data.length (undefined : α)).length := by
      rwa [List.length_replicate]
    have hlater : data.length - (length + 1) = ((changes data).drop length).length := by
      rw [List.length_drop, hsteps]
      omega
    have hstarted : ∀ x : α, (List.replicate data.length undefined).set length x =
        List.replicate length undefined ++
          x :: List.replicate ((changes data).drop length).length undefined := by
      intro x
      rw [List.set_eq_take_append_cons_drop, if_pos hblank, List.take_replicate,
        List.drop_replicate, hlater, Nat.min_eq_left hlong.le]
    rw [if_neg hshort, changes_eq, ok_bind, hbelow, ok_bind]
    dsimp only
    rw [write_of_lt hblank, ok_bind, add_one_of_lt hdata hlong, ok_bind, hstarted, hlater]
    obtain ⟨final, hfinal⟩ := foldlM_smoothAt length ((changes data).drop length)
      ((changes data).take length) (List.replicate length undefined)
      (Momentum.seed ((changes data).take length) length)
      (by rw [List.length_take, List.length_replicate]; omega)
    rw [List.length_replicate, List.take_append_drop] at hfinal
    rw [hfinal, rsi_of_long hshort]
    rfl

/-! ### Ranges -/

theorem trueRange_eq (high low close : List α) :
    trueRange high low close = .ok (Series.trueRange high low close) := by
  have hlength : (Series.trueRange high low close).length = sharedLength high low close :=
    length_trueRange high low close
  apply mapM_range_eq_ok hlength
  intro i x hx
  have hi : i < sharedLength high low close := hlength ▸ (List.getElem?_eq_some_iff.mp hx).1
  unfold sharedLength at hi
  have hh := List.getElem?_eq_getElem (l := high) (i := i) (by omega)
  have hl := List.getElem?_eq_getElem (l := low) (i := i) (by omega)
  have hc := List.getElem?_eq_getElem (l := close) (i := i) (by omega)
  rw [read_of_getElem? hh, ok_bind, read_of_getElem? hl, ok_bind]
  cases i with
  | zero =>
      rw [Series.trueRange, getElem?_trueRangeFrom_zero hh hl hc] at hx
      rw [if_pos rfl, Option.some.inj hx]
      rfl
  | succ i =>
      have hbefore := List.getElem?_eq_getElem (l := close) (i := i) (by omega)
      rw [Series.trueRange, getElem?_trueRangeFrom_succ hh hl hbefore hc] at hx
      rw [if_neg (Nat.succ_ne_zero i), sub_of_le (Nat.le_add_left 1 i), ok_bind,
        Nat.add_sub_cancel, read_of_getElem? hbefore, ok_bind, ← Option.some.inj hx]
      rfl

theorem atr_eq (high low close : List α) (length : Nat) :
    atr high low close length = .ok (Series.atr high low close length) := by
  rw [atr, trueRange_eq, ok_bind, ema_eq]
  rfl

theorem stochasticK_eq {high : List α} (hhigh : Addressable high) (low close : List α)
    (length : Nat) :
    stochasticK high low close length = .ok (Series.stochasticK high low close length) := by
  have hshared : sharedLength high low close ≤ high.length :=
    (min_le_left _ _).trans (min_le_left _ _)
  apply overIndices_eq hhigh hshared (length_stochasticK high low close length)
  · intro i hi hlacks
    unfold sharedLength at hi
    exact getElem?_stochasticK_of_lacks hlacks (by omega) (by omega) (by omega)
  · intro i hi hlength hfull
    unfold sharedLength at hi
    have hc := List.getElem?_eq_getElem (l := close) (i := i) (by omega)
    refine ⟨_, ?_, getElem?_stochasticK hlength (by omega) (by omega) hc⟩
    rw [window_eq (by omega) hfull, window_eq (by omega) hfull, read_of_getElem? hc,
      if_neg (by omega)]
    rfl

theorem stochastic_eq {high : List α} (hhigh : Addressable high) (low close : List α)
    (kLength dLength : Nat) :
    stochastic high low close kLength dLength =
      .ok (Series.stochastic high low close kLength dLength) := by
  have hline : Addressable (Series.stochasticK high low close kLength) := by
    have hshared : sharedLength high low close ≤ high.length :=
      (min_le_left _ _).trans (min_le_left _ _)
    unfold Addressable
    rw [length_stochasticK]
    exact Nat.le_trans hshared hhigh
  rw [stochastic, stochasticK_eq hhigh, ok_bind, sma_eq hline]
  rfl

end Indexed

/-! ### Undefined throughout -/

theorem eq_replicate_of_getElem? {values : List α} {count : Nat} {x : α}
    (hlength : values.length = count) (h : ∀ i < count, values[i]? = some x) :
    values = List.replicate count x := by
  apply List.ext_getElem?
  intro i
  by_cases hi : i < count
  · rw [h i hi, List.getElem?_replicate, if_pos hi]
  · rw [List.getElem?_eq_none (by omega), List.getElem?_replicate, if_neg hi]

theorem overWindows_of_lacks [Scalar α] {n : Nat} (f : List α → α) {data : List α}
    (hlacks : n = 0 ∨ data.length < n) :
    overWindows n f data = List.replicate data.length undefined := by
  apply eq_replicate_of_getElem? (length_overWindows n f data)
  intro i hi
  exact getElem?_overWindows_of_lacks f hi (by omega)

theorem stochasticK_of_lacks [Scalar α] {high low close : List α} {n : Nat}
    (hlacks : n = 0 ∨ Indexed.sharedLength high low close < n) :
    stochasticK high low close n =
      List.replicate (Indexed.sharedLength high low close) undefined := by
  have hlength : (stochasticK high low close n).length = Indexed.sharedLength high low close :=
    length_stochasticK high low close n
  apply eq_replicate_of_getElem? hlength
  intro i hi
  unfold Indexed.sharedLength at hi hlacks
  exact getElem?_stochasticK_of_lacks (by omega) (by omega) (by omega) (by omega)

theorem foldl_add_undefined (count : Nat) (sum : Float) :
    (List.replicate (count + 1) (undefined : Float)).foldl (· + ·) sum = undefined := by
  induction count generalizing sum with
  | zero => exact (undefined_right sum).1
  | succ count ih => rw [List.replicate_succ, List.foldl_cons, ih]

/-- The last values up to an index of one value repeated are that value again. -/
theorem lastValues_replicate (count : Nat) (x : α) {n i : Nat} (hi : i < count)
    (hfull : n ≤ i + 1) : lastValues n (List.replicate count x) i = List.replicate n x := by
  have hinside : i < (List.replicate count x).length := by rwa [List.length_replicate]
  apply eq_replicate_of_getElem? (length_lastValues hinside hfull)
  intro j hj
  rw [getElem?_lastValues hinside hj (by omega), List.getElem?_replicate, if_pos (by omega)]

/-- The mean of undefined values is undefined. -/
theorem sma_of_undefined (count n : Nat) :
    sma (List.replicate count (undefined : Float)) n = List.replicate count undefined := by
  apply eq_replicate_of_getElem? (by rw [length_sma, List.length_replicate])
  intro i hi
  have hinside : i < (List.replicate count (undefined : Float)).length := by
    rwa [List.length_replicate]
  by_cases hlacks : n = 0 ∨ i + 1 < n
  · exact getElem?_overWindows_of_lacks _ hinside hlacks
  · obtain ⟨last, rfl⟩ := Nat.exists_eq_succ_of_ne_zero fun hzero => hlacks (Or.inl hzero)
    rw [sma, getElem?_overWindows (Nat.succ_pos last) _ _ hinside, if_neg (by omega),
      lastValues_replicate count _ hi (by omega), foldl_add_undefined, (undefined_left _).2.2.2]

/-! ### No fault -/

/-- A computation by index comes to a series, of so many values. -/
def Gives (computation : Indexed.Counted (List α)) (series : List α) (count : Nat) : Prop :=
  computation = .ok series ∧ series.length = count

/-- **No length ends an indicator with a fault.**  Whatever the series hold and however long each
is, computed by index every indicator is what it is, with a value for each index that its series
share; and with a length of zero, or above the number of values, a windowed one is undefined
throughout. -/
theorem no_length_faults :
    (∀ (data : List Float) (n fast slow : Nat), Addressable data →
      Gives (Indexed.sma data n) (sma data n) data.length ∧
      Gives (Indexed.wma data n) (wma data n) data.length ∧
      Gives (Indexed.ema data n) (ema data n) data.length ∧
      Gives (Indexed.rsi data n) (rsi data n) data.length ∧
      Gives (Indexed.macdLine data fast slow) (macdLine data fast slow) data.length) ∧
    (∀ (high low close : List Float) (n k d : Nat),
      Addressable high → Addressable low → Addressable close →
      let count := min (min high.length low.length) close.length
      Gives (Indexed.trueRange high low close) (trueRange high low close) count ∧
      Gives (Indexed.atr high low close n) (atr high low close n) count ∧
      Gives (Indexed.stochasticK high low close k) (stochasticK high low close k) count ∧
      Gives (Indexed.stochastic high low close k d) (stochastic high low close k d) count) ∧
    (∀ (data : List Float) (n : Nat), n = 0 ∨ data.length < n →
      sma data n = List.replicate data.length undefined ∧
      wma data n = List.replicate data.length undefined ∧
      rsi data n = List.replicate data.length undefined) ∧
    (∀ (high low close : List Float) (k d : Nat),
      let count := min (min high.length low.length) close.length
      (k = 0 ∨ count < k → stochasticK high low close k = List.replicate count undefined) ∧
      ((k = 0 ∨ count < k) ∨ (d = 0 ∨ count < d) →
        stochastic high low close k d = List.replicate count undefined)) := by
  refine ⟨?_, ?_, ?_, ?_⟩
  · intro data n fast slow hdata
    exact ⟨⟨Indexed.sma_eq hdata n, length_sma data n⟩, ⟨Indexed.wma_eq hdata n, length_wma data n⟩,
      ⟨Indexed.ema_eq data n, length_ema data n⟩, ⟨Indexed.rsi_eq hdata n, length_rsi data n⟩,
      ⟨Indexed.macdLine_eq data fast slow, length_macdLine data fast slow⟩⟩
  · intro high low close n k d hhigh _ _
    exact ⟨⟨Indexed.trueRange_eq high low close, length_trueRange high low close⟩,
      ⟨Indexed.atr_eq high low close n, length_atr high low close n⟩,
      ⟨Indexed.stochasticK_eq hhigh low close k, length_stochasticK high low close k⟩,
      ⟨Indexed.stochastic_eq hhigh low close k d, length_stochastic high low close k d⟩⟩
  · intro data n hlacks
    have hshort : n = 0 ∨ data.length ≤ n := by omega
    exact ⟨overWindows_of_lacks _ hlacks, overWindows_of_lacks _ hlacks, rsi_of_short hshort⟩
  · intro high low close k d count
    refine ⟨stochasticK_of_lacks, ?_⟩
    intro hlacks
    rw [stochastic]
    by_cases hline : k = 0 ∨ count < k
    · rw [stochasticK_of_lacks hline, sma_of_undefined]
      rfl
    · have hlength : (stochasticK high low close k).length = count :=
        length_stochasticK high low close k
      have hmean : d = 0 ∨ (stochasticK high low close k).length < d :=
        hlength ▸ hlacks.resolve_left hline
      rw [sma, overWindows_of_lacks _ hmean, hlength]

/-- The largest length there is, over three bars of which one lacks its low: no fault, and
undefined at each index. -/
theorem no_fault_at_largest_length :
    let data : List Float := [1, 2, 4]
    let low : List Float := [1, 2]
    Indexed.sma data Indicator.maxLength = .ok [undefined, undefined, undefined] ∧
      Indexed.rsi data Indicator.maxLength = .ok [undefined, undefined, undefined] ∧
      Indexed.stochastic data low data Indicator.maxLength 1 = .ok [undefined, undefined] := by
  intro data low
  obtain ⟨haverages, hranges, hlong, hlongest⟩ := no_length_faults
  have hdata : Addressable data := by decide
  have hlow : Addressable low := by decide
  obtain ⟨hsma, -, -, hrsi, -⟩ := haverages data Indicator.maxLength 0 0 hdata
  obtain ⟨-, -, -, hoscillator⟩ := hranges data low data 0 Indicator.maxLength 1 hdata hlow hdata
  obtain ⟨hplain, -, hstrength⟩ := hlong data Indicator.maxLength (Or.inr (by decide))
  obtain ⟨-, hundefined⟩ := hlongest data low data Indicator.maxLength 1
  refine ⟨?_, ?_, ?_⟩
  · rw [hsma.1, hplain]
    rfl
  · rw [hrsi.1, hstrength]
    rfl
  · rw [hoscillator.1, hundefined (Or.inl (Or.inr (by decide)))]
    rfl

end ChartScript.Series
