/-
Blanks in argument lists.

Blanks may be put at the ends of an argument list and on either side of a top-level comma.  The
list is then cut at the same commas, and each piece is the same once it has been trimmed; nor does
it matter for the parentheses around the list.  So with and without the blanks the arguments are
the same, but for one exception: a last piece counts as an argument unless nothing at all stands
in it, and a blank is something.
-/
import Mathlib.Logic.Relation
import ChartScript.Indicator.Call
import ChartScript.Proofs.Arguments.Cutting

namespace ChartScript

open Text

namespace Arguments

/-! ### Where blanks may be put -/

/-- An argument list may have blanks between these two parts of it: at its ends, and on either side
of a comma outside quoted runs and parentheses. -/
inductive IsSeam : List Char → List Char → Prop where
  | front (after : List Char) : IsSeam [] after
  | back (before : List Char) : IsSeam before []
  | beforeComma {before : List Char} (top : ((Nesting.atDepth 0).after before).isTop = true)
      (after : List Char) : IsSeam before (',' :: after)
  | behindComma {before : List Char} (top : ((Nesting.atDepth 0).after before).isTop = true)
      (after : List Char) : IsSeam (before ++ [',']) after

/-- An argument list with blanks put into it at one place. -/
inductive Padding : List Char → List Char → Prop where
  | intro {before after : List Char} (seam : IsSeam before after) (blanks : List Char)
      (blank : ∀ c ∈ blanks, isBlank c = true) :
      Padding (before ++ after) (before ++ (blanks ++ after))

/-- **Blanks at a seam do not change the pieces**, once these are trimmed. -/
theorem Padding.map_trim_pieces {cs padded : List Char} (h : Padding cs padded) :
    (pieces padded).map trim = (pieces cs).map trim := by
  obtain @⟨before, after, seam, blanks, hblanks⟩ := h
  cases seam with
  | front => exact map_trim_pieces_blanks_append hblanks after
  | back =>
      rw [List.append_nil, List.append_nil]
      exact map_trim_pieces_append_blanks hblanks before
  | beforeComma top after =>
      have htop : ((Nesting.atDepth 0).after (before ++ blanks)).isTop = true := by
        rw [Nesting.after_append, Nesting.isTop_after_blanks hblanks, top]
      rw [← List.append_assoc, pieces_append_comma htop, pieces_append_comma top, List.map_append,
        map_trim_pieces_append_blanks hblanks, List.map_append]
  | @behindComma before top after =>
      rw [List.append_assoc, List.append_assoc, List.singleton_append, List.singleton_append,
        pieces_append_comma top, pieces_append_comma top, List.map_append,
        map_trim_pieces_blanks_append hblanks, List.map_append]

/-! ### The arguments -/

/-- Lists with the same trimmed pieces have the same arguments if both end empty or neither does,
and else one empty argument more. -/
theorem split_of_map_trim_eq {cs ds : List Char} (h : (pieces ds).map trim = (pieces cs).map trim) :
    ((EndsEmpty cs ↔ EndsEmpty ds) → split ds = split cs) ∧
      (EndsEmpty cs → ¬EndsEmpty ds → split ds = split cs ++ [[]]) := by
  obtain ⟨front, last, hcs, hempty, hfull⟩ := exists_split_eq cs
  obtain ⟨front', last', hds, hempty', hfull'⟩ := exists_split_eq ds
  rw [hcs, hds] at h
  obtain ⟨rfl, hlast⟩ := List.append_inj' h rfl
  cases hlast
  refine ⟨fun hiff => ?_, fun hcsEmpty hdsFull => ?_⟩
  · by_cases hends : EndsEmpty cs
    · rw [(hempty hends).1, (hempty' (hiff.mp hends)).1]
    · rw [hfull hends, hfull' fun hds => hends (hiff.mpr hds)]
  · rw [hfull' hdsFull, (hempty hcsEmpty).1, (hempty hcsEmpty).2]

/-! ### The parentheses around a list -/

/-- A comma forgets the blanks in front of it. -/
theorem next_comma_after_blanks {n : Nesting} {blanks : List Char}
    (h : ∀ c ∈ blanks, isBlank c = true) : (n.after blanks).next ',' = n.next ',' := by
  have hopener : (n.quotation.after blanks).opener = n.quotation.opener :=
    Quotation.opener_after fun c hc => isQuote_of_isBlank (h c hc)
  have hcomma : isQuote ',' = false := by decide
  rw [Nesting.after_blanks_eq h]
  simp [Nesting.next, Quotation.next, hcomma, hopener]

theorem closing_of_blanks {blanks : List Char} (h : ∀ c ∈ blanks, isBlank c = true) (n : Nesting) :
    closing n blanks = none :=
  closing_of_hidden (hidden_of_blanks h (List.forall_mem_singleton.mpr rfl))

/-- **Blanks at a seam do not change which parentheses match.** -/
theorem Padding.isArgumentList_iff {cs padded : List Char} (h : Padding cs padded) :
    IsArgumentList cs ↔ IsArgumentList padded := by
  obtain @⟨before, after, seam, blanks, hblanks⟩ := h
  have hclosing (n : Nesting) : closing n blanks = none := closing_of_blanks hblanks n
  rw [Arguments.isArgumentList_iff, Arguments.isArgumentList_iff]
  cases seam with
  | front =>
      rw [List.nil_append, List.nil_append, closing_append_eq_none_iff, Nesting.after_append,
        Nesting.after_blanks hblanks rfl, and_iff_right (hclosing _)]
  | back =>
      rw [List.append_nil, List.append_nil, closing_append_eq_none_iff, Nesting.after_append,
        Nesting.isOutside_after_blanks hblanks, Nesting.depth_after_blanks hblanks,
        and_iff_left (hclosing _)]
  | beforeComma top after =>
      simp only [closing_append_eq_none_iff, closing_comma_eq_none_iff, Nesting.after_append,
        Nesting.after_cons, next_comma_after_blanks hblanks, hclosing, true_and]
  | @behindComma before top after =>
      have hcomma (n : Nesting) : (n.next ',').after blanks = n.next ',' :=
        Nesting.after_blanks hblanks rfl
      simp only [closing_append_eq_none_iff, Nesting.after_append, Nesting.after_cons,
        Nesting.after_nil, hcomma, hclosing, true_and]

end Arguments

/-! ### Calls -/

namespace Indicator

open Arguments

/-- The call of a reserved name with an argument list. -/
def callText (kind : Kind) (arguments : List Char) : List Char :=
  namespaceMark.toList ++ kind.name.toList ++ '(' :: (arguments ++ [')'])

/-- A text is read as the call of a reserved name that is not as it should be. -/
def IsMalformedCall (cs : List Char) : Prop :=
  ∃ error, readCall? cs = some (.error (.malformedCall (String.ofList cs) error))

theorem readCall?_callText (kind : Kind) (arguments : List Char) :
    readCall? (callText kind arguments) =
      some (readArguments kind (namespaceMark.toList ++ kind.name.toList)
        ('(' :: (arguments ++ [')']))) := by
  have hname : ∀ c ∈ kind.name.toList, isIdentifierRest c = true := by
    refine List.all_eq_true.mp ?_
    cases kind <;> decide
  have htake : (kind.name.toList ++ '(' :: (arguments ++ [')'])).takeWhile isIdentifierRest =
      kind.name.toList := by
    rw [List.takeWhile_append_of_pos hname, List.takeWhile_cons_of_neg (by decide), List.append_nil]
  have hdrop : (kind.name.toList ++ '(' :: (arguments ++ [')'])).dropWhile isIdentifierRest =
      '(' :: (arguments ++ [')']) := by
    rw [List.dropWhile_append_of_pos hname, List.dropWhile_cons_of_neg (by decide)]
  have hkind : Kind.ofName? (String.ofList kind.name.toList) = some kind := by
    rw [String.ofList_toList]
    cases kind <;> decide
  have hmark : namespaceMark.toList.isPrefixOf? (callText kind arguments) =
      some (kind.name.toList ++ '(' :: (arguments ++ [')'])) :=
    List.isPrefixOf?_eq_some_iff_append_eq.mpr (List.append_assoc _ _ _).symm
  simp only [readCall?, hmark, htake, hdrop, hkind]

/-- What the call of a reserved name with the given arguments is read as. -/
def decoded (kind : Kind) (arguments : List (List Char)) : Except ScriptFault Indicator :=
  match decode kind (arguments.map String.ofList) with
  | .ok i => .ok i
  | .error fault => .error (.invalidArgument kind fault)

/-- A call with an argument list is read through its arguments alone. -/
theorem readCall?_of_isArgumentList {arguments : List Char} (h : IsArgumentList arguments)
    (kind : Kind) :
    readCall? (callText kind arguments) = some (decoded kind (split arguments)) := by
  have hfound : closing (.atDepth 1) (arguments ++ [')']) = some (arguments, []) := h
  have hopen : trimStart ('(' :: (arguments ++ [')'])) = '(' :: (arguments ++ [')']) :=
    trimStart_eq_self fun c hc => by cases hc; rfl
  rw [readCall?_callText, readArguments, hopen]
  simp only [enclosed, beq_self_eq_true, if_true, hfound, trim_nil]
  rfl

/-- With any other text in parentheses the call is malformed. -/
theorem isMalformedCall_of_not_isArgumentList {arguments : List Char}
    (h : ¬IsArgumentList arguments) (kind : Kind) : IsMalformedCall (callText kind arguments) := by
  have hopen : trimStart ('(' :: (arguments ++ [')'])) = '(' :: (arguments ++ [')']) :=
    trimStart_eq_self fun c hc => by cases hc; rfl
  rw [IsMalformedCall, readCall?_callText, readArguments, hopen]
  simp only [enclosed, beq_self_eq_true, if_true]
  cases hfound : closing (.atDepth 1) (arguments ++ [')']) with
  | none => exact ⟨_, rfl⟩
  | some found =>
      obtain ⟨inner, after⟩ := found
      have hlast : ')' ∈ after := by
        have happend := eq_append_of_closing hfound
        rcases List.eq_nil_or_concat' after with rfl | ⟨front, last, rfl⟩
        · obtain ⟨rfl, -⟩ := List.append_inj' happend rfl
          exact absurd hfound h
        · rw [← List.cons_append, ← List.append_assoc] at happend
          obtain ⟨-, hlast⟩ := List.append_inj' happend rfl
          cases hlast
          exact List.mem_append_right _ (List.mem_singleton.mpr rfl)
      -- A parenthesis is left behind the one that closes the list.
      have hsurplus : ¬(trim after).isEmpty = true := fun hblank =>
        absurd ((isEmpty_trim_iff after).mp hblank _ hlast) (by decide)
      simp only [if_neg hsurplus]
      exact ⟨_, rfl⟩

end Indicator

/-! ### What blanks change -/

namespace Arguments

open Indicator

/-- However often blanks are put into a list and taken off, its trimmed pieces stay the same, and
so do the parentheses around it. -/
theorem kept_of_eqvGen_padding {cs padded : List Char} (h : Relation.EqvGen Padding cs padded) :
    (pieces padded).map trim = (pieces cs).map trim ∧
      (IsArgumentList cs ↔ IsArgumentList padded) := by
  induction h with
  | rel _ _ hstep => exact ⟨hstep.map_trim_pieces, hstep.isArgumentList_iff⟩
  | refl _ => exact ⟨rfl, Iff.rfl⟩
  | symm _ _ _ ih => exact ⟨ih.1.symm, ih.2.symm⟩
  | trans _ _ _ _ _ ih ih' => exact ⟨ih'.1.trans ih.1, ih.2.trans ih'.2⟩

/-- **Blanks in an argument list show only behind its last comma.**  Put at the ends of a list or
beside its top-level commas, or taken off there, blanks leave the arguments as they are, and any
call of a reserved name with them, if nothing at all stands in the last piece both times or neither
time.  Blanks where nothing stood before are an argument more, an empty one. -/
theorem padding_shows_only_behind_last_comma {cs padded : List Char}
    (h : Relation.EqvGen Padding cs padded) :
    (split padded = split cs ↔ (EndsEmpty cs ↔ EndsEmpty padded)) ∧
    (EndsEmpty cs → ¬EndsEmpty padded → split padded = split cs ++ [[]]) ∧
    ∀ kind,
      (IsArgumentList cs → (EndsEmpty cs ↔ EndsEmpty padded) →
        readCall? (callText kind padded) = readCall? (callText kind cs)) ∧
      (¬IsArgumentList cs →
        IsMalformedCall (callText kind cs) ∧ IsMalformedCall (callText kind padded)) := by
  obtain ⟨hpieces, hlist⟩ := kept_of_eqvGen_padding h
  obtain ⟨hsame, hmore⟩ := split_of_map_trim_eq hpieces
  obtain ⟨-, hmore'⟩ := split_of_map_trim_eq hpieces.symm
  refine ⟨⟨fun heq => ?_, hsame⟩, hmore, fun kind => ⟨fun hcs hends => ?_, fun hcs => ?_⟩⟩
  · -- A list is not as long as itself with one argument more.
    by_contra hends
    have hlength : (split padded).length = (split cs).length := congrArg List.length heq
    by_cases hempty : EndsEmpty cs
    · rw [hmore hempty fun hpadded => hends (iff_of_true hempty hpadded)] at hlength
      simp at hlength
    · have hpadded : EndsEmpty padded := by
        by_contra hpadded
        exact hends (iff_of_false hempty hpadded)
      rw [hmore' hpadded hempty] at hlength
      simp at hlength
  · rw [readCall?_of_isArgumentList hcs, readCall?_of_isArgumentList (hlist.mp hcs), hsame hends]
  · exact ⟨isMalformedCall_of_not_isArgumentList hcs kind,
      isMalformedCall_of_not_isArgumentList (fun hpadded => hcs (hlist.mpr hpadded)) kind⟩

/-- A blank in front of a comma is as good as one behind it and another at the end; in front of
nothing it is an argument; and where a parenthesis closes the list too early it mends nothing. -/
theorem padding_around_commas :
    (split "close, 12 ".toList = split "close ,12".toList ∧
      readCall? (callText .macd "close, 12 ".toList) =
        readCall? (callText .macd "close ,12".toList)) ∧
    split "9, ".toList = split "9,".toList ++ [[]] ∧
    IsMalformedCall (callText .atr "9) ,".toList) := by
  have hblank : ∀ c ∈ [' '], isBlank c = true := List.forall_mem_singleton.mpr rfl
  have hcomma : Relation.EqvGen Padding "close ,12".toList "close, 12 ".toList := by
    refine .trans _ "close,12".toList _ (.symm _ _ (.rel _ _ ?_))
      (.trans _ "close, 12".toList _ (.rel _ _ ?_) (.rel _ _ ?_))
    · exact .intro (@IsSeam.beforeComma "close".toList (by decide) "12".toList) _ hblank
    · exact .intro (@IsSeam.behindComma "close".toList (by decide) "12".toList) _ hblank
    · exact .intro (.back "close, 12".toList) _ hblank
  have hend : Relation.EqvGen Padding "9,".toList "9, ".toList :=
    .rel _ _ (.intro (.back "9,".toList) _ hblank)
  have hclosed : Relation.EqvGen Padding "9),".toList "9) ,".toList :=
    .rel _ _ (.intro (@IsSeam.beforeComma "9)".toList (by decide) []) _ hblank)
  obtain ⟨hsplit, -, hcalls⟩ := padding_shows_only_behind_last_comma hcomma
  obtain ⟨-, hmore, -⟩ := padding_shows_only_behind_last_comma hend
  obtain ⟨-, -, hmalformed⟩ := padding_shows_only_behind_last_comma hclosed
  have hends : EndsEmpty "close ,12".toList ↔ EndsEmpty "close, 12 ".toList := by decide
  exact ⟨⟨hsplit.mpr hends, (hcalls .macd).1 (by decide) hends⟩, hmore (by decide) (by decide),
    ((hmalformed .atr).2 (by decide)).2⟩

/-- The call that leaves all its arguments out has one when a blank stands between its
parentheses, and that one is no length. -/
theorem blank_is_an_argument :
    Padding [] [' '] ∧ split [] = [] ∧ split [' '] = [[]] ∧
      readCall? (callText .atr []) = some (.ok (.atr 14)) ∧
      readCall? (callText .atr [' ']) =
        some (.error (.invalidArgument .atr (.notInteger "length" ""))) := by
  have hpadding : Padding [] [' '] :=
    .intro (.front []) [' '] (List.forall_mem_singleton.mpr rfl)
  exact ⟨hpadding, by decide, by decide, by decide +kernel, by decide +kernel⟩

end Arguments

end ChartScript
