/-
The parenthesis that closes an argument list.

The search for it counts the parenthesis that opens the list, and the scan for commas that reads
the list afterwards does not.  That is the only difference between them: behind every part of the
list they are in the same quoted run, and the one has one parenthesis more open than the other.  So
the search ends at the first parenthesis that the other would find to be one too many, and inside
the list there is none.

`IsBalanced` says what stands between the two parentheses without a search for it, in terms of what
a text leaves open.  There is one text of this kind in front of a parenthesis, or none.
-/
import ChartScript.Proofs.Arguments.Cutting
import ChartScript.Proofs.Text.Openings

namespace ChartScript

open Text

/-! ### One parenthesis more -/

namespace Text.Nesting

/-- The same place with one parenthesis more around it. -/
def deeper (n : Nesting) : Nesting :=
  ⟨n.quotation, n.depth + 1⟩

/-- Unless a parenthesis is one too many, both scans take it the same way. -/
theorem deeper_next {n : Nesting} {c : Char} (h : ¬(c = ')' ∧ n.isTop = true)) :
    n.deeper.next c = (n.next c).deeper := by
  have hdepth : (n.deeper.next c).depth = (n.next c).depth + 1 := by
    by_cases houtside : n.quotation.isOutside = true
    · by_cases hopen : c = '('
      · simp [deeper, next, houtside, hopen]
      by_cases hclose : c = ')'
      · have hpos : n.depth ≠ 0 := fun hzero => h ⟨hclose, by simp [isTop, houtside, hzero]⟩
        simp [deeper, next, houtside, hclose]
        omega
      · simp [deeper, next, houtside, hopen, hclose]
    · simp [deeper, next, houtside]
  calc n.deeper.next c = ⟨n.quotation.next c, (n.deeper.next c).depth⟩ := rfl
    _ = (n.next c).deeper := by rw [hdepth]; rfl

end Text.Nesting

namespace Arguments

variable {n : Nesting} {cs inner after : List Char}

theorem closing_deeper_cons (n : Nesting) (c : Char) (cs : List Char) :
    closing n.deeper (c :: cs) =
      if c = ')' ∧ n.isTop = true then some ([], cs)
      else (closing (n.next c).deeper cs).map fun (inner, after) => (c :: inner, after) := by
  have htop : (c == ')' && n.deeper.quotation.isOutside && n.deeper.depth == 1) = true ↔
      c = ')' ∧ n.isTop = true := by
    simp [Nesting.deeper, Nesting.isTop, and_assoc]
  rw [closing]
  by_cases hclose : c = ')' ∧ n.isTop = true
  · rw [if_pos (htop.mpr hclose), if_pos hclose]
  · rw [if_neg fun h => hclose (htop.mp h), if_neg hclose, Nesting.deeper_next hclose]

/-- **Nothing is found in a text that has no parenthesis too many in it.** -/
theorem closing_deeper_eq_none_iff :
    closing n.deeper cs = none ↔
      ∀ before after, cs = before ++ ')' :: after → (n.after before).isTop = false := by
  induction cs generalizing n with
  | nil =>
      refine iff_of_true rfl fun before after h => ?_
      simp at h
  | cons c cs ih =>
      rw [closing_deeper_cons]
      by_cases hclose : c = ')' ∧ n.isTop = true
      · rw [if_pos hclose]
        refine iff_of_false (by simp) fun h => ?_
        have htop := h [] cs (by rw [hclose.1]; rfl)
        rw [Nesting.after_nil, hclose.2] at htop
        cases htop
      · rw [if_neg hclose, Option.map_eq_none_iff, ih]
        constructor
        · intro h before after hcs
          cases before with
          | nil =>
              obtain ⟨hc, -⟩ := List.cons.inj hcs
              rw [Bool.eq_false_iff]
              exact fun htop => hclose ⟨hc, htop⟩
          | cons first before =>
              obtain ⟨rfl, hrest⟩ := List.cons.inj hcs
              exact h before after hrest
        · intro h before after hcs
          exact h (c :: before) after (by rw [hcs, List.cons_append])

/-- **The two scans keep in step** as long as nothing is found. -/
theorem deeper_after (h : closing n.deeper cs = none) :
    n.deeper.after cs = (n.after cs).deeper := by
  induction cs generalizing n with
  | nil => rfl
  | cons c cs ih =>
      rw [closing_deeper_cons] at h
      by_cases hclose : c = ')' ∧ n.isTop = true
      · rw [if_pos hclose] at h
        cases h
      · rw [if_neg hclose, Option.map_eq_none_iff] at h
        rw [Nesting.after_cons, Nesting.deeper_next hclose, ih h, Nesting.after_cons]

/-! ### What stands in parentheses -/

/-- A text whose quoted runs are closed and whose parentheses match.  None of them closes where none
is open, so the depth never falls below zero. -/
structure IsBalanced (cs : List Char) : Prop where
  closed : LeavesOpen cs none 0
  matched : ∀ before after, cs = before ++ ')' :: after → ¬LeavesOpen before none 0

/-- The parentheses around a text match each other exactly if those in the text do. -/
theorem isArgumentList_iff_isBalanced : IsArgumentList cs ↔ IsBalanced cs := by
  have hmatched : closing (.atDepth 1) cs = none ↔
      ∀ before after, cs = before ++ ')' :: after → ¬LeavesOpen before none 0 := by
    rw [show Nesting.atDepth 1 = (Nesting.atDepth 0).deeper from rfl, closing_deeper_eq_none_iff]
    simp only [leavesOpen_none_iff, Bool.not_eq_true]
  have hclosed (hnone : closing (.atDepth 1) cs = none) :
      (((Nesting.atDepth 1).after cs).quotation.isOutside = true ∧
        ((Nesting.atDepth 1).after cs).depth = 1) ↔ LeavesOpen cs none 0 := by
    rw [show (Nesting.atDepth 1).after cs = ((Nesting.atDepth 0).after cs).deeper from
      @deeper_after (.atDepth 0) cs hnone, leavesOpen_none_iff]
    simp [Nesting.deeper, Nesting.isTop]
  rw [isArgumentList_iff]
  constructor
  · rintro ⟨hnone, hafter⟩
    exact ⟨(hclosed hnone).mp hafter, hmatched.mp hnone⟩
  · intro h
    have hnone := hmatched.mpr h.matched
    exact ⟨hnone, (hclosed hnone).mpr h.closed⟩

/-- What is found is in parentheses, and nothing behind it matters. -/
theorem closing_eq_some_iff :
    closing (.atDepth 1) cs = some (inner, after) ↔
      cs = inner ++ ')' :: after ∧ IsArgumentList inner := by
  constructor
  · intro h
    have hcs := eq_append_of_closing h
    refine ⟨hcs, ?_⟩
    rw [hcs, List.append_cons, closing_append] at h
    cases hfound : closing (.atDepth 1) (inner ++ [')']) with
    | some found =>
        obtain ⟨front, back⟩ := found
        rw [hfound] at h
        obtain ⟨rfl, hrest⟩ := Prod.mk.inj (Option.some.inj h)
        rw [List.append_left_eq_self.mp hrest] at hfound
        exact hfound
    | none =>
        -- What is found would be longer than it is.
        rw [hfound] at h
        obtain ⟨more, -, heq⟩ := Option.map_eq_some_iff.mp h
        have hlength := congrArg (fun found => found.1.length) heq
        simp only [List.length_append, List.length_singleton] at hlength
        omega
  · rintro ⟨rfl, hlist⟩
    have hfound : closing (.atDepth 1) (inner ++ [')']) = some (inner, []) := hlist
    rw [List.append_cons, closing_append, hfound]
    rfl

/-- The search for the closing parenthesis behind a part of the list. -/
def searching (before : List Char) : Nesting :=
  (Nesting.atDepth 1).after before

/-- The scan for commas behind a part of the list. -/
def splitting (before : List Char) : Nesting :=
  (Nesting.atDepth 0).after before

/-- As long as the search has found nothing, the scan for commas is in the same quoted run, with one
parenthesis less. -/
theorem searching_eq {before : List Char} (h : closing (.atDepth 1) before = none) :
    searching before = (splitting before).deeper :=
  @deeper_after (.atDepth 0) before h

/-- Nothing is found in a part of a balanced text. -/
theorem IsBalanced.closing_eq_none {before : List Char} (h : IsBalanced (before ++ after)) :
    closing (.atDepth 1) before = none := by
  have hlist := (isArgumentList_iff.mp (isArgumentList_iff_isBalanced.mpr h)).1
  exact (closing_append_eq_none_iff.mp hlist).1

theorem enclosed_openParen (start : Nat) (tail : List Char) :
    enclosed start ('(' :: tail) =
      match closing (.atDepth 1) tail with
      | some found => .ok found
      | none => .error ⟨.expectedClose none, start + byteLength ('(' :: tail)⟩ := by
  simp only [enclosed, beq_self_eq_true, if_true]
  cases closing (.atDepth 1) tail <;> rfl

theorem enclosed_eq_ok_iff {start : Nat} {tail : List Char} :
    enclosed start ('(' :: tail) = .ok (inner, after) ↔
      tail = inner ++ ')' :: after ∧ IsBalanced inner := by
  rw [← isArgumentList_iff_isBalanced, ← closing_eq_some_iff, enclosed_openParen]
  cases closing (.atDepth 1) tail <;> simp

/-- **The parenthesis that is found is the one that matches.**  Take any text with a parenthesis
that opens behind some front of it.  The search succeeds with what stands in parentheses, and what
follows, exactly if what stands there is balanced, and there is one such text at most; if there is
none, it fails at the end of the whole text.  It never takes a parenthesis off where none is open.
Nor does the scan for commas in what has been found, at whose end nothing is open; and behind every
part of it both are in the same quoted run, at depths that differ by one. -/
theorem enclosed_finds_matching_parenthesis (front tail : List Char) :
    let found := enclosed (byteLength front) ('(' :: tail)
    (∀ inner after, found = .ok (inner, after) ↔
      tail = inner ++ ')' :: after ∧ IsBalanced inner) ∧
    (∀ inner after inner' after', tail = inner ++ ')' :: after → IsBalanced inner →
      tail = inner' ++ ')' :: after' → IsBalanced inner' → inner = inner' ∧ after = after') ∧
    ((¬∃ inner after, tail = inner ++ ')' :: after ∧ IsBalanced inner) →
      found = .error ⟨.expectedClose none, byteLength (front ++ '(' :: tail)⟩) ∧
    (∀ before after, tail = before ++ ')' :: after → closing (.atDepth 1) before = none →
      (searching before).quotation.isOutside = true → 0 < (searching before).depth) ∧
    ∀ inner after, found = .ok (inner, after) →
      (∀ before behind, inner = before ++ behind →
        (searching before).quotation = (splitting before).quotation ∧
          (searching before).depth = (splitting before).depth + 1) ∧
      (∀ before behind, inner = before ++ ')' :: behind →
        (splitting before).quotation.isOutside = true → 0 < (splitting before).depth) ∧
      (splitting inner).isTop = true := by
  intro found
  refine ⟨fun inner after => enclosed_eq_ok_iff, ?_, ?_, ?_, ?_⟩
  · intro inner after inner' after' htail hinner htail' hinner'
    have hok : found = .ok (inner, after) := enclosed_eq_ok_iff.mpr ⟨htail, hinner⟩
    have hok' : found = .ok (inner', after') := enclosed_eq_ok_iff.mpr ⟨htail', hinner'⟩
    exact Prod.mk.inj (Except.ok.inj (hok.symm.trans hok'))
  · intro hnone
    have hclosing : closing (.atDepth 1) tail = none := by
      rw [Option.eq_none_iff_forall_ne_some]
      rintro ⟨inner, after⟩ hsome
      obtain ⟨htail, hinner⟩ := closing_eq_some_iff.mp hsome
      exact hnone ⟨inner, after, htail, isArgumentList_iff_isBalanced.mp hinner⟩
    show enclosed (byteLength front) ('(' :: tail) = _
    rw [enclosed_openParen, hclosing, byteLength_append]
  · intro before after _ hclosing _
    rw [searching_eq hclosing]
    exact Nat.succ_pos _
  · intro inner after hok
    obtain ⟨-, hinner⟩ := enclosed_eq_ok_iff.mp hok
    refine ⟨?_, ?_, leavesOpen_none_iff.mp hinner.closed⟩
    · rintro before behind rfl
      rw [searching_eq hinner.closing_eq_none]
      exact ⟨rfl, rfl⟩
    · intro before behind hbefore houtside
      have hopen := hinner.matched before behind hbefore
      rw [leavesOpen_none_iff, Nesting.isTop] at hopen
      by_contra hdepth
      have hzero : (splitting before).depth = 0 := by omega
      exact hopen (Bool.and_eq_true_iff.mpr ⟨houtside, beq_iff_eq.mpr hzero⟩)

/-- Neither a quoted parenthesis nor that of a nested list ends the search. -/
theorem enclosed_finds_parenthesis_behind_quoted_one :
    enclosed 6 "(g(1), ')') * 2".toList = .ok ("g(1), ')'".toList, " * 2".toList) ∧
      (splitting "g(1), ')'".toList).isTop = true := by
  have hbalanced : IsBalanced "g(1), ')'".toList := by
    rw [← isArgumentList_iff_isBalanced]
    decide
  obtain ⟨hfound, -, -, -, hinner⟩ :=
    enclosed_finds_matching_parenthesis "ta.sma".toList "g(1), ')') * 2".toList
  have hok := (hfound "g(1), ')'".toList " * 2".toList).mpr ⟨rfl, hbalanced⟩
  exact ⟨hok, (hinner _ _ hok).2.2⟩

end Arguments

end ChartScript
