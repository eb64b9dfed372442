/-
Which bars there are, and in which order.

The bars of some rows are the complete rows among them, each shown by one bar, sorted by
time.  The sort is stable, so `Row.inOrder` keeps rows of one time in the order they came
in; that is the reading of a filter for one time, which a stable sort leaves as it was.

If no two complete rows have one time there is only one order to put them in.  It makes no
difference then in which order they come, and gap rows make none anyway: what a provider may
do to its rows is put together from reordering them and from putting in and taking out gaps.
-/
import Mathlib
import ChartScript.Bar

namespace ChartScript

namespace Row

/-- Whether a row has an opening and a closing price. -/
def isComplete (row : Row) : Bool :=
  row.openPrice.isSome && row.close.isSome

/-- A bar has the time and the prices of a row, and is undefined where the row has no high,
low or volume. -/
structure Shows (row : Row) (bar : Bar) : Prop where
  time : bar.time = row.time
  openPrice : row.openPrice = some bar.openPrice
  high : bar.high = row.high.getD Scalar.undefined
  low : bar.low = row.low.getD Scalar.undefined
  close : row.close = some bar.close
  volume : bar.volume = row.volume.getD Scalar.undefined

/-- Some rows may arrive as others do: in another order, with more gaps or with fewer. -/
inductive Rearranged : List Row → List Row → Prop where
  | reordered {rows others : List Row} (perm : rows.Perm others) : Rearranged rows others
  | gapInserted (front back : List Row) {gap : Row} (incomplete : gap.isComplete = false) :
      Rearranged (front ++ back) (front ++ gap :: back)
  | gapRemoved (front back : List Row) {gap : Row} (incomplete : gap.isComplete = false) :
      Rearranged (front ++ gap :: back) (front ++ back)
  | trans {rows others more : List Row} (first : Rearranged rows others)
      (second : Rearranged others more) : Rearranged rows more

variable {row : Row} {rows others : List Row}

/-- However rows are rearranged, the complete ones stay the same. -/
theorem Rearranged.perm (h : Rearranged rows others) :
    (rows.filter isComplete).Perm (others.filter isComplete) := by
  induction h with
  | reordered perm => exact perm.filter _
  | gapInserted front back incomplete => simp [incomplete]
  | gapRemoved front back incomplete => simp [incomplete]
  | trans _ _ first second => exact first.trans second

/-! ### The bar of a row -/

/-- The bar of a row, all of whose absent prices are undefined. -/
def bar (row : Row) : Bar where
  time := row.time
  openPrice := row.openPrice.getD Scalar.undefined
  high := row.high.getD Scalar.undefined
  low := row.low.getD Scalar.undefined
  close := row.close.getD Scalar.undefined
  volume := row.volume.getD Scalar.undefined

theorem toBar?_eq (row : Row) : row.toBar? = if row.isComplete then some row.bar else none := by
  unfold toBar? isComplete bar
  cases row.openPrice with
  | none => rfl
  | some openPrice =>
      cases row.close with
      | none => rfl
      | some close => rfl

theorem shows_bar (h : row.isComplete = true) : row.Shows row.bar := by
  obtain ⟨hopen, hclose⟩ := Bool.and_eq_true_iff.mp h
  obtain ⟨openPrice, hopen⟩ := Option.isSome_iff_exists.mp hopen
  obtain ⟨close, hclose⟩ := Option.isSome_iff_exists.mp hclose
  refine ⟨rfl, ?_, rfl, rfl, ?_, rfl⟩
  · simp [bar, hopen]
  · simp [bar, hclose]

/-- The rows that make bars are the complete ones. -/
theorem filterMap_toBar? (rows : List Row) :
    rows.filterMap toBar? = (rows.filter isComplete).map bar := by
  induction rows with
  | nil => rfl
  | cons row rest ih =>
      rw [List.filterMap_cons, toBar?_eq]
      by_cases h : row.isComplete = true
      · rw [if_pos h, List.filter_cons_of_pos h, List.map_cons, ih]
      · rw [if_neg h, List.filter_cons_of_neg h, ih]

/-! ### Sorting -/

/-- Whether a row is not later than another. -/
def notAfter (a b : Row) : Bool :=
  decide (a.time.toInt ≤ b.time.toInt)

theorem notAfter_trans (a b c : Row) (hab : notAfter a b = true) (hbc : notAfter b c = true) :
    notAfter a c = true := by
  simp only [notAfter, decide_eq_true_eq] at *
  omega

theorem notAfter_total (a b : Row) : (notAfter a b || notAfter b a) = true := by
  simp only [notAfter, Bool.or_eq_true, decide_eq_true_eq]
  omega

theorem notAfter_iff {a b : Row} : notAfter a b = true ↔ a.time ≤ b.time := by
  rw [notAfter, decide_eq_true_eq, Int64.le_iff_toInt_le]

/-- The complete rows among some rows, ascending by time. -/
def inOrder (rows : List Row) : List Row :=
  (rows.filter isComplete).mergeSort notAfter

/-- Sorting loses no row and adds none. -/
theorem inOrder_perm (rows : List Row) : (inOrder rows).Perm (rows.filter isComplete) :=
  List.mergeSort_perm _ _

theorem inOrder_ascends (rows : List Row) :
    (inOrder rows).Pairwise fun a b => a.time ≤ b.time := by
  have hsorted := List.pairwise_mergeSort notAfter_trans notAfter_total (rows.filter isComplete)
  exact hsorted.imp fun h => notAfter_iff.mp h

/-- **Rows of one time keep the order they came in.** -/
theorem filter_inOrder (rows : List Row) (time : Int64) :
    (inOrder rows).filter (·.time == time) = (rows.filter isComplete).filter (·.time == time) := by
  -- Rows of one time are in order as they are, so they are found in this order in the sorted
  -- rows; and there are no more of them there.
  have hsame : ((rows.filter isComplete).filter (·.time == time)).Pairwise
      fun a b => notAfter a b = true := by
    refine List.pairwise_of_forall_mem_list ?_
    intro a ha b hb
    have htime : a.time = b.time := by
      rw [beq_iff_eq.mp (List.mem_filter.mp ha).2, beq_iff_eq.mp (List.mem_filter.mp hb).2]
    rw [notAfter_iff, htime]
    exact Int64.le_refl _
  have hsublist := List.sublist_mergeSort notAfter_trans notAfter_total hsame List.filter_sublist
  have hfound := hsublist.filter (·.time == time)
  rw [List.filter_eq_self.mpr fun row hrow => (List.mem_filter.mp hrow).2] at hfound
  have hlength := ((inOrder_perm rows).filter (·.time == time)).length_eq
  exact (hfound.eq_of_length hlength.symm).symm

/-- Rows with different times have one order only. -/
theorem inOrder_eq (h : Rearranged rows others)
    (hdistinct : ((rows.filter isComplete).map Row.time).Nodup) :
    inOrder others = inOrder rows := by
  have hperm : (inOrder others).Perm (inOrder rows) :=
    (inOrder_perm others).trans (h.perm.symm.trans (inOrder_perm rows).symm)
  refine hperm.eq_of_pairwise ?_ (inOrder_ascends others) (inOrder_ascends rows)
  intro a b ha hb hab hba
  have hrow : a ∈ rows.filter isComplete := (inOrder_perm rows).mem_iff.mp (hperm.mem_iff.mp ha)
  have hrow' : b ∈ rows.filter isComplete := (inOrder_perm rows).mem_iff.mp hb
  exact List.inj_on_of_nodup_map hdistinct hrow hrow' (Int64.le_antisymm hab hba)

end Row

namespace Bar

/-- The bars of some rows are those of the complete rows in order. -/
theorem ofRows_eq (rows : List Row) : ofRows rows = (Row.inOrder rows).map Row.bar := by
  rw [ofRows, Row.filterMap_toBar?, Row.inOrder]
  refine (List.map_mergeSort ?_).symm
  intro a _ b _
  rfl

/-- **Every complete row is shown by one bar**, and there are no other bars. -/
theorem shows_ofRows (rows : List Row) :
    List.Forall₂ Row.Shows (Row.inOrder rows) (ofRows rows) := by
  rw [ofRows_eq, List.forall₂_map_right_iff, List.forall₂_same]
  intro row hrow
  have hmem := (Row.inOrder_perm rows).mem_iff.mp hrow
  exact Row.shows_bar (List.mem_filter.mp hmem).2

theorem ofRows_of_rearranged {rows others : List Row} (h : Row.Rearranged rows others)
    (hdistinct : ((rows.filter Row.isComplete).map Row.time).Nodup) :
    ofRows others = ofRows rows := by
  rw [ofRows_eq, ofRows_eq, Row.inOrder_eq h hdistinct]

/-- The bars of rows with different times ascend strictly. -/
theorem ofRows_ascends {rows : List Row}
    (hdistinct : ((rows.filter Row.isComplete).map Row.time).Nodup) :
    (ofRows rows).Pairwise fun a b => a.time < b.time := by
  have hnodup : ((Row.inOrder rows).map Row.time).Nodup :=
    ((Row.inOrder_perm rows).map Row.time).nodup_iff.mpr hdistinct
  have hne : (Row.inOrder rows).Pairwise fun a b => a.time ≠ b.time := List.pairwise_map.mp hnodup
  rw [ofRows_eq, List.pairwise_map]
  exact ((Row.inOrder_ascends rows).and hne).imp fun h => Int64.lt_of_le_of_ne h.1 h.2

end Bar

end ChartScript
