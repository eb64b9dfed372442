/-
What is open behind a text.

Behind any text a quoted run may be open, and some parentheses.  `LeavesOpen` says which, by rules
for the last character of a text that look back no further than one character; there is no scan in
it, and nothing that could be carried over wrongly from one character to the next.  A scan of
nesting arrives at just that, which is `leavesOpen_iff`, so what is said here in terms of
`LeavesOpen` holds of every scanner that reads on from where the scan has arrived.
-/
import Mathlib.Data.List.Induction
import ChartScript.Proofs.Text.Quotation

namespace ChartScript.Text

/-- Behind `front` the character is a quote character that no backslash precedes. -/
def IsLive (front : List Char) (c : Char) : Prop :=
  isQuote c = true ∧ front.getLast? ≠ some '\\'

instance (front : List Char) (c : Char) : Decidable (IsLive front c) :=
  inferInstanceAs (Decidable (_ ∧ _))

/-- Behind a text a quoted run is open, given by its quote character, or none is; and so many
parentheses are open, where those in quoted runs do not count. -/
inductive LeavesOpen : List Char → Option Char → Nat → Prop where
  | start : LeavesOpen [] none 0
  | opensRun {front : List Char} {depth : Nat} {c : Char} (before : LeavesOpen front none depth)
      (live : IsLive front c) : LeavesOpen (front ++ [c]) (some c) depth
  | closesRun {front : List Char} {depth : Nat} {c : Char}
      (before : LeavesOpen front (some c) depth) (live : IsLive front c) :
      LeavesOpen (front ++ [c]) none depth
  | inRun {front : List Char} {depth : Nat} {c o : Char}
      (before : LeavesOpen front (some o) depth) (other : ¬(IsLive front c ∧ c = o)) :
      LeavesOpen (front ++ [c]) (some o) depth
  | opens {front : List Char} {depth : Nat} (before : LeavesOpen front none depth) :
      LeavesOpen (front ++ ['(']) none (depth + 1)
  | closes {front : List Char} {depth : Nat} (before : LeavesOpen front none (depth + 1)) :
      LeavesOpen (front ++ [')']) none depth
  /-- A closing parenthesis where none is open leaves none open. -/
  | surplus {front : List Char} (before : LeavesOpen front none 0) :
      LeavesOpen (front ++ [')']) none 0
  | passes {front : List Char} {depth : Nat} {c : Char} (before : LeavesOpen front none depth)
      (dead : ¬IsLive front c) (notOpen : c ≠ '(') (notClose : c ≠ ')') :
      LeavesOpen (front ++ [c]) none depth

/-! ### The scan -/

theorem Quotation.escaping_after_start (cs : List Char) :
    (start.after cs).escaping = (cs.getLast? == some '\\') := by
  by_cases h : cs = []
  · rw [h]
    rfl
  · exact escaping_after h

namespace Nesting

theorem quotation_after (n : Nesting) (cs : List Char) :
    (n.after cs).quotation = n.quotation.after cs := by
  induction cs generalizing n with
  | nil => rfl
  | cons c cs ih => exact ih (n.next c)

theorem after_concat (n : Nesting) (front : List Char) (c : Char) :
    n.after (front ++ [c]) = (n.after front).next c := by
  rw [after_append]
  rfl

/-- A scan has a run open, or none, and so many parentheses. -/
def Stands (n : Nesting) (run : Option Char) (depth : Nat) : Prop :=
  n.quotation.opener = run ∧ n.depth = depth

theorem isTop_iff_stands {n : Nesting} : n.isTop = true ↔ n.Stands none 0 := by
  simp [isTop, Stands, Quotation.isOutside]

theorem isLive_iff {front : List Char} {c : Char} :
    IsLive front c ↔ isQuote c = true ∧ ((atDepth 0).after front).quotation.escaping = false := by
  rw [IsLive, quotation_after]
  refine and_congr_right fun _ => ?_
  show _ ↔ (Quotation.start.after front).escaping = false
  rw [Quotation.escaping_after_start, beq_eq_false_iff_ne]

/-- What one character more makes of what the scan has open. -/
theorem stands_after_concat {front : List Char} {c : Char} {run other : Option Char}
    {depth most : Nat} (h : ((atDepth 0).after front).Stands run depth) :
    ((atDepth 0).after (front ++ [c])).Stands other most ↔
      (if IsLive front c then
          if run = none then some c else if run = some c then none else run
        else run) = other ∧
      (if run = none then
          if c = '(' then depth + 1 else if c = ')' then depth - 1 else depth
        else depth) = most := by
  obtain ⟨rfl, rfl⟩ := h
  simp only [after_concat, Stands, isLive_iff]
  generalize (atDepth 0).after front = n
  obtain ⟨⟨opener, escaping⟩, depth⟩ := n
  cases opener with
  | none => simp [next, Quotation.next, Quotation.isOutside]
  | some o => simp [next, Quotation.next, Quotation.isOutside]

end Nesting

/-- No parenthesis is a quote character. -/
theorem IsLive.ne_parentheses {front : List Char} {c : Char} (h : IsLive front c) :
    c ≠ '(' ∧ c ≠ ')' :=
  ⟨ne_of_class h.1 (by decide), ne_of_class h.1 (by decide)⟩

theorem not_isLive_openParen (front : List Char) : ¬IsLive front '(' :=
  fun h => h.ne_parentheses.1 rfl

theorem not_isLive_closeParen (front : List Char) : ¬IsLive front ')' :=
  fun h => h.ne_parentheses.2 rfl

/-! ### The rules and the scan -/

/-- The scan follows the rules. -/
theorem LeavesOpen.stands {cs : List Char} {run : Option Char} {depth : Nat}
    (h : LeavesOpen cs run depth) : ((Nesting.atDepth 0).after cs).Stands run depth := by
  induction h with
  | start => exact ⟨rfl, rfl⟩
  | opensRun _ live ih =>
      obtain ⟨hopen, hclose⟩ := live.ne_parentheses
      rw [Nesting.stands_after_concat ih]
      simp [live, hopen, hclose]
  | closesRun _ live ih =>
      rw [Nesting.stands_after_concat ih]
      simp [live]
  | inRun _ other ih =>
      rw [Nesting.stands_after_concat ih]
      simp only [reduceCtorEq, if_false, Option.some.injEq, and_true]
      split
      · rename_i live
        rw [if_neg fun hc => other ⟨live, hc.symm⟩]
      · rfl
  | opens _ ih =>
      rw [Nesting.stands_after_concat ih]
      simp [not_isLive_openParen]
  | closes _ ih =>
      rw [Nesting.stands_after_concat ih]
      simp [not_isLive_closeParen]
  | surplus _ ih =>
      rw [Nesting.stands_after_concat ih]
      simp [not_isLive_closeParen]
  | passes _ dead notOpen notClose ih =>
      rw [Nesting.stands_after_concat ih]
      simp [dead, notOpen, notClose]

/-- Some rule applies behind every text. -/
theorem exists_leavesOpen (cs : List Char) : ∃ run depth, LeavesOpen cs run depth := by
  induction cs using List.reverseRecOn with
  | nil => exact ⟨none, 0, .start⟩
  | append_singleton front c ih =>
      obtain ⟨run, depth, hfront⟩ := ih
      cases run with
      | some o =>
          by_cases hends : IsLive front c ∧ c = o
          · obtain ⟨live, rfl⟩ := hends
            exact ⟨none, depth, .closesRun hfront live⟩
          · exact ⟨some o, depth, .inRun hfront hends⟩
      | none =>
          by_cases live : IsLive front c
          · exact ⟨some c, depth, .opensRun hfront live⟩
          by_cases hopen : c = '('
          · rw [hopen]
            exact ⟨none, depth + 1, .opens hfront⟩
          by_cases hclose : c = ')'
          · rw [hclose]
            cases depth with
            | zero => exact ⟨none, 0, .surplus hfront⟩
            | succ depth => exact ⟨none, depth, .closes hfront⟩
          · exact ⟨none, depth, .passes hfront live hopen hclose⟩

/-- **A text leaves open what the scan has open behind it**, and nothing else. -/
theorem leavesOpen_iff {cs : List Char} {run : Option Char} {depth : Nat} :
    LeavesOpen cs run depth ↔ ((Nesting.atDepth 0).after cs).Stands run depth := by
  refine ⟨LeavesOpen.stands, fun h => ?_⟩
  obtain ⟨other, most, hopen⟩ := exists_leavesOpen cs
  obtain ⟨hrun, hdepth⟩ := hopen.stands
  obtain ⟨rfl, rfl⟩ := h
  rwa [hrun, hdepth]

/-- Nothing is open behind a text exactly if the scan is outside everything. -/
theorem leavesOpen_none_iff {cs : List Char} :
    LeavesOpen cs none 0 ↔ ((Nesting.atDepth 0).after cs).isTop = true := by
  rw [leavesOpen_iff, Nesting.isTop_iff_stands]

/-- A backslash keeps a quote character from opening a run, wherever it stands; a parenthesis too
many counts for nothing. -/
example : LeavesOpen "a)(\\\"".toList none 1 := by
  rw [leavesOpen_iff]
  exact ⟨by decide, by decide⟩

end ChartScript.Text
