/-
Cutting an argument list, and finding its end.

Both scanners read on from where a text in front has left them, so what they do with two texts in
a row is put together from what they do with each.  A top-level comma starts anew: the pieces of a
text are those in front of it and those behind it, and arguments joined by commas are cut apart
again.  The closing parenthesis of a list is the first one that brings the depth back to zero
outside quoted runs.
-/
import ChartScript.Arguments
import ChartScript.Proofs.Text.Quotation

namespace ChartScript

open Text

namespace Arguments

variable {n : Nesting} {cs ds : List Char}

/-! ### Pieces -/

theorem next_comma_of_isTop (h : n.isTop = true) : n.next ',' = .atDepth 0 := by
  obtain ⟨houtside, hdepth⟩ := Bool.and_eq_true_iff.mp h
  obtain ⟨⟨opener, escaping⟩, depth⟩ := n
  obtain rfl : depth = 0 := beq_iff_eq.mp hdepth
  obtain rfl : opener = none := Option.isNone_iff_eq_none.mp houtside
  rfl

theorem piecesFrom_cons_comma (h : n.isTop = true) (cs : List Char) :
    piecesFrom n (',' :: cs) = ([], pieces cs) := by
  rw [piecesFrom, next_comma_of_isTop h]
  simp [h, pieces]

theorem piecesFrom_cons_of_not_cut {c : Char} (h : ¬(c = ',' ∧ n.isTop = true)) (cs : List Char) :
    piecesFrom n (c :: cs) =
      (c :: (piecesFrom (n.next c) cs).1, (piecesFrom (n.next c) cs).2) := by
  rw [piecesFrom]
  simp [h]

/-- The pieces of two texts in a row: the last piece of the first one goes on with the first piece
of the second. -/
theorem piecesFrom_append (n : Nesting) (cs ds : List Char) :
    ∃ front last, (piecesFrom n cs).1 :: (piecesFrom n cs).2 = front ++ [last] ∧
      (piecesFrom n (cs ++ ds)).1 :: (piecesFrom n (cs ++ ds)).2 =
        front ++ (last ++ (piecesFrom (n.after cs) ds).1) :: (piecesFrom (n.after cs) ds).2 := by
  induction cs generalizing n with
  | nil => exact ⟨[], [], rfl, rfl⟩
  | cons c cs ih =>
      obtain ⟨front, last, hcs, happend⟩ := ih (n.next c)
      rw [List.cons_append, Nesting.after_cons]
      by_cases hcut : c = ',' ∧ n.isTop = true
      · obtain ⟨rfl, htop⟩ := hcut
        rw [next_comma_of_isTop htop] at hcs happend ⊢
        rw [piecesFrom_cons_comma htop, piecesFrom_cons_comma htop]
        exact ⟨[] :: front, last, congrArg _ hcs, congrArg _ happend⟩
      · rw [piecesFrom_cons_of_not_cut hcut, piecesFrom_cons_of_not_cut hcut]
        cases front with
        | nil =>
            obtain ⟨hfirst, hothers⟩ := List.cons.inj hcs
            obtain ⟨hfirst', hothers'⟩ := List.cons.inj happend
            exact ⟨[], c :: last, by rw [hfirst, hothers]; rfl, by rw [hfirst', hothers']; rfl⟩
        | cons piece front =>
            obtain ⟨hfirst, hothers⟩ := List.cons.inj hcs
            obtain ⟨hfirst', hothers'⟩ := List.cons.inj happend
            exact ⟨(c :: piece) :: front, last, by rw [hfirst, hothers]; rfl,
              by rw [hfirst', hothers']; rfl⟩

theorem pieces_append (cs ds : List Char) :
    ∃ front last, pieces cs = front ++ [last] ∧
      pieces (cs ++ ds) = front ++ (last ++ (piecesFrom ((Nesting.atDepth 0).after cs) ds).1) ::
        (piecesFrom ((Nesting.atDepth 0).after cs) ds).2 :=
  piecesFrom_append _ cs ds

/-- **A top-level comma cuts a text in two**, and the part behind it is cut by itself. -/
theorem pieces_append_comma (h : ((Nesting.atDepth 0).after cs).isTop = true) (ds : List Char) :
    pieces (cs ++ ',' :: ds) = pieces cs ++ pieces ds := by
  obtain ⟨front, last, hcs, happend⟩ := pieces_append cs (',' :: ds)
  rw [happend, hcs, piecesFrom_cons_comma h]
  simp

/-- A text that hides its commas is not cut. -/
theorem piecesFrom_of_hidden (h : Hidden [','] n.quotation cs) : piecesFrom n cs = (cs, []) := by
  induction cs generalizing n with
  | nil => rfl
  | cons c cs ih =>
      have hc : ¬(c = ',' ∧ n.isTop = true) := by
        rintro ⟨hcomma, htop⟩
        exact h.1 (Bool.and_eq_true_iff.mp htop).1 (List.mem_singleton.mpr hcomma)
      have hcs : Hidden [','] (n.next c).quotation cs := h.2
      rw [piecesFrom_cons_of_not_cut hc, ih hcs]

/-! ### Blanks at the ends -/

section

variable {cs blanks : List Char}

theorem pieces_of_blanks (h : ∀ c ∈ blanks, isBlank c = true) (n : Nesting) :
    piecesFrom n blanks = (blanks, []) :=
  piecesFrom_of_hidden (hidden_of_blanks h (forall_mem_of_all (by decide)))

theorem map_trim_pieces_append_blanks (h : ∀ c ∈ blanks, isBlank c = true) (cs : List Char) :
    (pieces (cs ++ blanks)).map trim = (pieces cs).map trim := by
  obtain ⟨front, last, hcs, happend⟩ := pieces_append cs blanks
  rw [happend, hcs, pieces_of_blanks h, List.map_append, List.map_append, List.map_cons,
    trim_append_right h]
  rfl

theorem map_trim_pieces_blanks_append (h : ∀ c ∈ blanks, isBlank c = true) (cs : List Char) :
    (pieces (blanks ++ cs)).map trim = (pieces cs).map trim := by
  obtain ⟨front, last, hblanks, happend⟩ := pieces_append blanks cs
  have hone : [] ++ [blanks] = front ++ [last] := by
    rw [← hblanks, pieces, pieces_of_blanks h]
    rfl
  obtain ⟨rfl, hlast⟩ := List.append_inj' hone rfl
  cases hlast
  rw [happend, Nesting.after_blanks h rfl, List.nil_append, List.map_cons, trim_append_left h]
  rfl

end

/-! ### The arguments -/

/-- Nothing at all stands behind the last top-level comma, or in the whole list if it has none. -/
def EndsEmpty (cs : List Char) : Prop :=
  (pieces cs).getLast? = some []

instance (cs : List Char) : Decidable (EndsEmpty cs) :=
  inferInstanceAs (Decidable (_ = _))

theorem dropEmptyLast_concat (front : List (List Char)) (last : List Char) :
    dropEmptyLast (front ++ [last]) = if last.isEmpty then front else front ++ [last] := by
  induction front with
  | nil => rfl
  | cons piece front ih =>
      have hstep : dropEmptyLast (piece :: (front ++ [last])) =
          piece :: dropEmptyLast (front ++ [last]) := by
        cases front <;> rfl
      rw [List.cons_append, hstep, ih]
      split <;> rfl

/-- The arguments are the trimmed pieces, without the last one if nothing stands in it. -/
theorem exists_split_eq (cs : List Char) :
    ∃ front last, (pieces cs).map trim = front ++ [last] ∧
      (EndsEmpty cs → split cs = front ∧ last = []) ∧
      (¬EndsEmpty cs → split cs = front ++ [last]) := by
  obtain ⟨front, last, hcs, -⟩ := pieces_append cs []
  have hends : EndsEmpty cs ↔ last = [] := by
    rw [EndsEmpty, hcs, List.getLast?_concat, Option.some.injEq]
  refine ⟨front.map trim, trim last, by rw [hcs, List.map_append]; rfl, ?_, ?_⟩
  · intro hempty
    obtain rfl := hends.mp hempty
    rw [split, hcs, dropEmptyLast_concat]
    exact ⟨rfl, trim_nil⟩
  · intro hempty
    have hne : last.isEmpty = false := List.isEmpty_eq_false_iff.mpr fun h => hempty (hends.mpr h)
    rw [split, hcs, dropEmptyLast_concat, if_neg (by rw [hne]; decide), List.map_append]
    rfl

/-! ### Joined arguments -/

/-- A text that can stand in an argument list as it is. -/
structure IsArgument (cs : List Char) : Prop where
  nonempty : cs ≠ []
  trimmed : IsTrimmed cs
  /-- No comma cuts it. -/
  whole : pieces cs = [cs]
  /-- Its quoted runs and parentheses are closed. -/
  closed : ((Nesting.atDepth 0).after cs).isTop = true

theorem map_trim_pieces_intercalate {arguments : List (List Char)}
    (h : ∀ argument ∈ arguments, IsArgument argument) (hne : arguments ≠ []) :
    (pieces (", ".toList.intercalate arguments)).map trim = arguments := by
  induction arguments with
  | nil => exact absurd rfl hne
  | cons argument rest ih =>
      obtain ⟨hargument, hrest⟩ := List.forall_mem_cons.mp h
      have htrim : (pieces argument).map trim = [argument] := by
        rw [hargument.whole, List.map_singleton, hargument.trimmed.trim_eq]
      cases rest with
      | nil => rwa [List.intercalate_singleton]
      | cons next more =>
          rw [List.intercalate_cons_cons, List.append_assoc,
            show ", ".toList ++ ", ".toList.intercalate (next :: more) =
              ',' :: ([' '] ++ ", ".toList.intercalate (next :: more)) from rfl,
            pieces_append_comma hargument.closed, List.map_append, htrim,
            map_trim_pieces_blanks_append (List.forall_mem_singleton.mpr rfl), ih hrest (by simp)]
          rfl

/-- **Joined arguments are cut apart again.** -/
theorem split_intercalate {arguments : List (List Char)}
    (h : ∀ argument ∈ arguments, IsArgument argument) :
    split (", ".toList.intercalate arguments) = arguments := by
  by_cases hne : arguments = []
  · rw [hne]
    rfl
  have hpieces := map_trim_pieces_intercalate h hne
  obtain ⟨front, last, hsplit, -, hfull⟩ := exists_split_eq (", ".toList.intercalate arguments)
  rw [hpieces] at hsplit
  refine (hfull fun hends => ?_).trans hsplit.symm
  -- The last argument is not empty.
  have hlast : arguments.getLast? = some [] := by
    rw [← hpieces, List.getLast?_map, hends]
    rfl
  exact (h _ (List.mem_of_getLast? hlast)).nonempty rfl

/-- A text that hides commas and parentheses is an argument. -/
theorem isArgument_of_isSealed {cs : List Char} (h : IsSealed [',', '(', ')'] cs)
    (hne : cs ≠ []) (htrimmed : IsTrimmed cs) : IsArgument cs where
  nonempty := hne
  trimmed := htrimmed
  whole := by
    rw [pieces, piecesFrom_of_hidden (h.hidden.mono (by simp))]
  closed := by
    rw [Nesting.after_of_hidden (h.hidden.mono (by simp))]
    show Nesting.isTop ⟨Quotation.start.after cs, 0⟩ = true
    rw [h.closed]
    rfl

/-! ### The closing parenthesis -/

theorem closing_append (n : Nesting) (cs ds : List Char) :
    closing n (cs ++ ds) =
      match closing n cs with
      | some (inner, after) => some (inner, after ++ ds)
      | none => (closing (n.after cs) ds).map fun (inner, after) => (cs ++ inner, after) := by
  induction cs generalizing n with
  | nil => simp [closing]
  | cons c cs ih =>
      rw [List.cons_append, closing, closing, Nesting.after_cons]
      by_cases hclose : (c == ')' && n.quotation.isOutside && n.depth == 1) = true
      · rw [if_pos hclose, if_pos hclose]
      · rw [if_neg hclose, if_neg hclose, ih]
        cases closing (n.next c) cs with
        | some found => rfl
        | none =>
            rw [Option.map_none, Option.map_map]
            rfl

/-- What has been found is the text in front of a parenthesis and the text behind it. -/
theorem eq_append_of_closing {inner after : List Char} (h : closing n cs = some (inner, after)) :
    cs = inner ++ ')' :: after := by
  induction cs generalizing n inner with
  | nil => cases h
  | cons c cs ih =>
      rw [closing] at h
      by_cases hclose : (c == ')' && n.quotation.isOutside && n.depth == 1) = true
      · rw [if_pos hclose] at h
        cases h
        simp only [Bool.and_eq_true, beq_iff_eq] at hclose
        rw [hclose.1.1, List.nil_append]
      · rw [if_neg hclose] at h
        obtain ⟨⟨inner', after'⟩, hfound, heq⟩ := Option.map_eq_some_iff.mp h
        cases heq
        rw [ih hfound, List.cons_append]

theorem eq_append_of_enclosed {start : Nat} {cs inner after : List Char}
    (h : enclosed start cs = .ok (inner, after)) : cs = '(' :: (inner ++ ')' :: after) := by
  cases cs with
  | nil => cases h
  | cons c cs =>
      rw [enclosed] at h
      split at h
      · rename_i hopen
        split at h
        · rename_i hclosing
          cases h
          rw [beq_iff_eq.mp hopen, eq_append_of_closing hclosing]
        · cases h
      · cases h

theorem closing_append_eq_none_iff :
    closing n (cs ++ ds) = none ↔ closing n cs = none ∧ closing (n.after cs) ds = none := by
  rw [closing_append]
  cases closing n cs with
  | some found => simp
  | none => simp

/-- In a text that hides its closing parentheses there is nothing to be found. -/
theorem closing_of_hidden (h : Hidden [')'] n.quotation cs) : closing n cs = none := by
  induction cs generalizing n with
  | nil => rfl
  | cons c cs ih =>
      have hc : ¬(c == ')' && n.quotation.isOutside && n.depth == 1) = true := by
        intro hclose
        simp only [Bool.and_eq_true, beq_iff_eq] at hclose
        exact h.1 hclose.1.2 (List.mem_singleton.mpr hclose.1.1)
      have hcs : Hidden [')'] (n.next c).quotation cs := h.2
      rw [closing, if_neg hc, ih hcs, Option.map_none]

theorem closing_comma_eq_none_iff :
    closing n (',' :: cs) = none ↔ closing (n.next ',') cs = none := by
  simp [closing]

/-- The parentheses put around a text match each other. -/
def IsArgumentList (cs : List Char) : Prop :=
  closing (.atDepth 1) (cs ++ [')']) = some (cs, [])

instance (cs : List Char) : Decidable (IsArgumentList cs) :=
  inferInstanceAs (Decidable (_ = _))

/-- No parenthesis in an argument list closes it, and behind the list one does. -/
theorem isArgumentList_iff :
    IsArgumentList cs ↔ closing (.atDepth 1) cs = none ∧
      ((Nesting.atDepth 1).after cs).quotation.isOutside = true ∧
      ((Nesting.atDepth 1).after cs).depth = 1 := by
  rw [IsArgumentList, closing_append]
  cases closing (.atDepth 1) cs with
  | some found => simp
  | none => simp [closing]

/-- A text that hides its parentheses is an argument list. -/
theorem isArgumentList_of_isSealed (h : IsSealed ['(', ')'] cs) : IsArgumentList cs := by
  have hafter : (Nesting.atDepth 1).after cs = .atDepth 1 := by
    rw [Nesting.after_of_hidden h.hidden]
    show (⟨Quotation.start.after cs, 1⟩ : Nesting) = _
    rw [h.closed]
    rfl
  rw [isArgumentList_iff, closing_of_hidden (h.hidden.mono (by simp)), hafter]
  exact ⟨rfl, rfl, rfl⟩

end Arguments

end ChartScript
