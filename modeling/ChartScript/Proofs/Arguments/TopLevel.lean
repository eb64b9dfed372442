/-
An argument list is cut at its top-level commas.

`IsCut` says what it is to cut a text at exactly the commas that stand outside quoted runs and
parentheses: the parts joined by commas are the text again, so nothing is lost and nothing made up,
and a comma of the text stands between two parts exactly if nothing is open in front of it.  There
is one way to do so, and `pieces` finds it.  The arguments are these parts, trimmed, but for a last
part in which nothing at all stands.

The other way round, arguments that have nothing left open, and no comma that could cut them, are
found again when they are joined.
-/
import ChartScript.Proofs.Arguments.Cutting
import ChartScript.Proofs.Text.Openings

namespace ChartScript

open Text

namespace Arguments

/-- Some parts with a comma between each two of them. -/
def joined (parts : List (List Char)) : List Char :=
  [','].intercalate parts

@[simp] theorem joined_singleton (part : List Char) : joined [part] = part :=
  List.intercalate_singleton

theorem joined_cons {rest : List (List Char)} (h : rest ≠ []) (part : List Char) :
    joined (part :: rest) = part ++ ',' :: joined rest := by
  cases rest with
  | nil => exact absurd rfl h
  | cons next more => simp [joined]

/-- A text cut at exactly its top-level commas. -/
structure IsCut (cs : List Char) (parts : List (List Char)) : Prop where
  nonempty : parts ≠ []
  joined_eq : joined parts = cs
  /-- A comma of the text is between two parts exactly if nothing is open in front of it. -/
  between : ∀ before after, cs = before ++ ',' :: after →
    (LeavesOpen before none 0 ↔
      ∃ front back, front ≠ [] ∧ back ≠ [] ∧ parts = front ++ back ∧ before = joined front)

/-! ### The pieces are a cut -/

theorem joined_piecesFrom (n : Nesting) (cs : List Char) :
    joined ((piecesFrom n cs).1 :: (piecesFrom n cs).2) = cs := by
  induction cs generalizing n with
  | nil => rfl
  | cons c cs ih =>
      by_cases hcut : c = ',' ∧ n.isTop = true
      · obtain ⟨rfl, htop⟩ := hcut
        rw [piecesFrom_cons_comma htop, joined_cons (by simp [pieces]), List.nil_append]
        exact congrArg _ (ih _)
      · rw [piecesFrom_cons_of_not_cut hcut]
        have hrest := ih (n.next c)
        cases hothers : (piecesFrom (n.next c) cs).2 with
        | nil =>
            rw [hothers, joined_singleton] at hrest
            rw [joined_singleton, hrest]
        | cons next more =>
            rw [hothers, joined_cons (by simp)] at hrest
            rw [joined_cons (by simp), List.cons_append, hrest]

theorem joined_pieces (cs : List Char) : joined (pieces cs) = cs :=
  joined_piecesFrom _ cs

/-- Wherever the pieces are taken apart, the scan is outside everything. -/
theorem isTop_of_piecesFrom_eq_append {n : Nesting} {cs : List Char} {front back : List (List Char)}
    (h : (piecesFrom n cs).1 :: (piecesFrom n cs).2 = front ++ back) (hfront : front ≠ [])
    (hback : back ≠ []) : (n.after (joined front)).isTop = true := by
  induction cs generalizing n front with
  | nil =>
      have hlength := congrArg List.length h
      have hone := List.length_pos_iff.mpr hfront
      have hother := List.length_pos_iff.mpr hback
      simp [piecesFrom] at hlength
      omega
  | cons c cs ih =>
      obtain ⟨part, front, rfl⟩ := List.exists_cons_of_ne_nil hfront
      by_cases hcut : c = ',' ∧ n.isTop = true
      · obtain ⟨rfl, htop⟩ := hcut
        rw [piecesFrom_cons_comma htop] at h
        obtain ⟨rfl, hrest⟩ := List.cons.inj h
        by_cases hne : front = []
        · rwa [hne, joined_singleton]
        · rw [joined_cons hne, List.nil_append, Nesting.after_cons, next_comma_of_isTop htop]
          exact ih hrest hne
      · rw [piecesFrom_cons_of_not_cut hcut] at h
        obtain ⟨rfl, hrest⟩ := List.cons.inj h
        have htop : ((n.next c).after (joined ((piecesFrom (n.next c) cs).1 :: front))).isTop =
            true := ih (congrArg _ hrest) (by simp)
        by_cases hne : front = []
        · subst hne
          rwa [joined_singleton] at htop ⊢
        · rw [joined_cons hne] at htop ⊢
          exact htop

/-- **The pieces of a text are a cut of it.** -/
theorem isCut_pieces (cs : List Char) : IsCut cs (pieces cs) where
  nonempty := by simp [pieces]
  joined_eq := joined_pieces cs
  between := by
    intro before after hcs
    rw [leavesOpen_none_iff]
    constructor
    · intro htop
      refine ⟨pieces before, pieces after, by simp [pieces], by simp [pieces], ?_, ?_⟩
      · rw [hcs, pieces_append_comma htop]
      · rw [joined_pieces]
    · rintro ⟨front, back, hfront, hback, hpieces, rfl⟩
      exact isTop_of_piecesFrom_eq_append hpieces hfront hback

/-! ### There is no other cut -/

/-- A top-level comma starts anew. -/
theorem leavesOpen_append_comma {cs : List Char} (h : LeavesOpen cs none 0) (ds : List Char) :
    LeavesOpen (cs ++ ',' :: ds) none 0 ↔ LeavesOpen ds none 0 := by
  rw [leavesOpen_none_iff] at h
  rw [leavesOpen_none_iff, leavesOpen_none_iff, Nesting.after_append, Nesting.after_cons,
    next_comma_of_isTop h]

/-- Parts taken apart behind a comma that is not the first one: the other parts are taken apart
there as well. -/
theorem exists_of_joined_eq_append {part before : List Char} {rest front back : List (List Char)}
    (h : part :: rest = front ++ back) (hfront : front ≠ [])
    (hbefore : part ++ ',' :: before = joined front) :
    ∃ more, more ≠ [] ∧ rest = more ++ back ∧ before = joined more := by
  obtain ⟨first, more, rfl⟩ := List.exists_cons_of_ne_nil hfront
  obtain ⟨rfl, hrest⟩ := List.cons.inj h
  have hne : more ≠ [] := by
    rintro rfl
    have hlength := congrArg List.length hbefore
    rw [joined_singleton, List.length_append, List.length_cons] at hlength
    omega
  rw [joined_cons hne] at hbefore
  exact ⟨more, hne, hrest, (List.cons.inj (List.append_cancel_left hbefore)).2⟩

namespace IsCut

variable {cs part : List Char} {parts rest : List (List Char)}

/-- A text is its only part if no top-level comma is in it. -/
theorem singleton_iff :
    IsCut cs [cs] ↔ ∀ before after, cs = before ++ ',' :: after → ¬LeavesOpen before none 0 := by
  have hone : ∀ before, ¬∃ front back, front ≠ [] ∧ back ≠ [] ∧ [cs] = front ++ back ∧
      before = joined front := by
    rintro before ⟨front, back, hfront, hback, hparts, -⟩
    have hlength := congrArg List.length hparts
    have hone := List.length_pos_iff.mpr hfront
    have hother := List.length_pos_iff.mpr hback
    rw [List.length_singleton, List.length_append] at hlength
    omega
  constructor
  · intro h before after hcs hopen
    exact hone before ((h.between before after hcs).mp hopen)
  · intro h
    exact ⟨by simp, joined_singleton cs, fun before after hcs =>
      iff_of_false (h before after hcs) (hone before)⟩

/-- Nothing is open behind the first of several parts. -/
theorem leavesOpen_head (h : IsCut cs (part :: rest)) (hrest : rest ≠ []) :
    LeavesOpen part none 0 := by
  have hcs : cs = part ++ ',' :: joined rest := by rw [← joined_cons hrest, h.joined_eq]
  exact (h.between _ _ hcs).mpr ⟨[part], rest, by simp, hrest, rfl, (joined_singleton part).symm⟩

/-- The first part is cut no further. -/
theorem head (h : IsCut cs (part :: rest)) : IsCut part [part] := by
  by_cases hrest : rest = []
  · rw [hrest] at h
    have hcs := h.joined_eq
    rw [joined_singleton] at hcs
    rwa [← hcs] at h
  rw [singleton_iff]
  intro before after hpart hopen
  have hcs : cs = before ++ ',' :: (after ++ ',' :: joined rest) := by
    rw [← h.joined_eq, joined_cons hrest, hpart, List.append_assoc, List.cons_append]
  obtain ⟨front, back, hfront, -, hparts, hbefore⟩ := (h.between _ _ hcs).mp hopen
  obtain ⟨first, more, rfl⟩ := List.exists_cons_of_ne_nil hfront
  obtain ⟨rfl, -⟩ := List.cons.inj hparts
  -- The text in front of the comma is as long as the part with the comma in it.
  have hlength : part.length ≤ before.length := by
    by_cases hmore : more = []
    · rw [hbefore, hmore, joined_singleton]
    · rw [hbefore, joined_cons hmore, List.length_append]
      omega
  rw [hpart, List.length_append, List.length_cons] at hlength
  omega

/-- The other parts are a cut of what is behind the first comma. -/
theorem tail (h : IsCut cs (part :: rest)) (hrest : rest ≠ []) : IsCut (joined rest) rest := by
  refine ⟨hrest, rfl, fun before after hbehind => ?_⟩
  have hcs : cs = (part ++ ',' :: before) ++ ',' :: after := by
    rw [← h.joined_eq, joined_cons hrest, hbehind, List.append_assoc, List.cons_append]
  rw [← leavesOpen_append_comma (h.leavesOpen_head hrest), h.between _ _ hcs]
  constructor
  · rintro ⟨front, back, hfront, hback, hparts, hbefore⟩
    obtain ⟨more, hmore, hrest, hjoined⟩ := exists_of_joined_eq_append hparts hfront hbefore
    exact ⟨more, back, hmore, hback, hrest, hjoined⟩
  · rintro ⟨front, back, hfront, hback, hparts, rfl⟩
    exact ⟨part :: front, back, by simp, hback, by rw [hparts, List.cons_append],
      (joined_cons hfront part).symm⟩

/-- A text that is its only part is its only piece. -/
theorem pieces_eq_singleton (h : IsCut cs [cs]) : pieces cs = [cs] := by
  have hcut := isCut_pieces cs
  cases hpieces : pieces cs with
  | nil => exact absurd hpieces hcut.nonempty
  | cons first others =>
      rw [hpieces] at hcut
      by_cases hothers : others = []
      · have hfirst := hcut.joined_eq
        rw [hothers, joined_singleton] at hfirst
        rw [hothers, hfirst]
      · have hcs : cs = first ++ ',' :: joined others := by
          rw [← joined_cons hothers, hcut.joined_eq]
        exact absurd (hcut.leavesOpen_head hothers) (singleton_iff.mp h _ _ hcs)

/-- **A text is cut at its top-level commas in one way.** -/
theorem eq_pieces (h : IsCut cs parts) : parts = pieces cs := by
  induction parts generalizing cs with
  | nil => exact absurd rfl h.nonempty
  | cons part rest ih =>
      have hpart : pieces part = [part] := h.head.pieces_eq_singleton
      by_cases hrest : rest = []
      · have hcs := h.joined_eq
        rw [hrest, joined_singleton] at hcs
        rw [hrest, ← hcs, hpart]
      · have htop := leavesOpen_none_iff.mp (h.leavesOpen_head hrest)
        have hcs : cs = part ++ ',' :: joined rest := by rw [← joined_cons hrest, h.joined_eq]
        rw [hcs, pieces_append_comma htop, hpart, ← ih (h.tail hrest), List.singleton_append]

end IsCut

/-! ### Arguments -/

/-- A text that can stand in an argument list as it is, and as one argument. -/
structure StandsAlone (cs : List Char) : Prop where
  nonempty : cs ≠ []
  trimmed : IsTrimmed cs
  /-- Its quoted runs are closed, and so are its parentheses. -/
  closed : LeavesOpen cs none 0
  /-- Each comma in it is quoted or in parentheses. -/
  uncut : ∀ before after, cs = before ++ ',' :: after → ¬LeavesOpen before none 0

/-- The pieces of such a text, and the scan of it, tell that it is one. -/
theorem standsAlone_iff {cs : List Char} : StandsAlone cs ↔ IsArgument cs := by
  constructor
  · intro h
    exact ⟨h.nonempty, h.trimmed, (IsCut.singleton_iff.mpr h.uncut).pieces_eq_singleton,
      leavesOpen_none_iff.mp h.closed⟩
  · intro h
    have hcut := isCut_pieces cs
    rw [h.whole] at hcut
    exact ⟨h.nonempty, h.trimmed, leavesOpen_none_iff.mpr h.closed, IsCut.singleton_iff.mp hcut⟩

/-- **Splitting loses nothing and invents nothing.**  A text is cut at exactly its top-level commas
in one way.  Its arguments are the parts, trimmed and in order, but for a last part in which
nothing stands.  And whatever arguments are joined, they are found again, if each can stand alone
in a list. -/
theorem split_is_cut_at_top_level_commas :
    (∀ cs, ∃ parts, IsCut cs parts ∧ (∀ other, IsCut cs other → other = parts) ∧
      split cs = (if parts.getLast? = some [] then parts.dropLast else parts).map trim) ∧
    ∀ arguments, (∀ argument ∈ arguments, StandsAlone argument) →
      split (", ".toList.intercalate arguments) = arguments := by
  constructor
  · intro cs
    refine ⟨pieces cs, isCut_pieces cs, fun other h => h.eq_pieces, ?_⟩
    obtain ⟨front, last, hpieces, -⟩ := pieces_append cs []
    rw [split, hpieces, dropEmptyLast_concat, List.getLast?_concat, List.dropLast_concat]
    by_cases hlast : last = []
    · rw [hlast]
      rfl
    · rw [if_neg (by simpa using hlast), if_neg (by simpa using hlast)]
  · intro arguments h
    exact split_intercalate fun argument hmem => standsAlone_iff.mp (h argument hmem)

/-- Commas in quotes and in parentheses stay where they are, in the list and out of it. -/
theorem split_is_cut_around_hidden_commas :
    let arguments := ["'b, c'".toList, "f(x, y)".toList, "z".toList]
    (∀ argument ∈ arguments, StandsAlone argument) ∧
      split "'b, c', f(x, y), z".toList = arguments := by
  intro arguments
  have halone : ∀ argument ∈ arguments, StandsAlone argument := by
    simp only [arguments, List.forall_mem_cons, standsAlone_iff]
    refine ⟨?_, ?_, ?_, by simp⟩ <;>
      exact ⟨by decide, ⟨fun c hc => by cases hc; rfl, fun c hc => by cases hc; rfl⟩, by decide,
        by decide⟩
  exact ⟨halone, split_is_cut_at_top_level_commas.2 arguments halone⟩

end Arguments

end ChartScript
