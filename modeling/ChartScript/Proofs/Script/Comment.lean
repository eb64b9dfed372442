/-
Comments behind the lines of a script.

What a line is read as depends on its code alone: on what is in front of its comment, without
blanks at the ends.  So a comment can be put behind a line, or taken off, unless a quoted run is
open there or a slash stands in front of the comment mark and makes one of its own with it.
-/
import ChartScript.Proofs.Text.Comment
import ChartScript.Script.Line

namespace ChartScript

open Text

namespace Line

/-! ### The code of a line -/

/-- The form of a line with the given code. -/
def formOfCode (code : List Char) : Form :=
  if code.isEmpty then .blank
  else
    match call? "indicator" code with
    | some arguments => .declaration arguments
    | none =>
        match call? "plot" code with
        | some arguments => .plot code arguments
        | none => assignmentForm code

/-- A trimmed line has no code if it is empty or starts with a comment mark. -/
theorem isEmpty_code {line : List Char} (h : IsTrimmed line) :
    (code line).isEmpty = (line.isEmpty || "//".toList.isPrefixOf line) := by
  cases line with
  | nil => rfl
  | cons c rest =>
      have hmark : "//".toList.isPrefixOf (c :: rest) = true ↔
          SlashesBehind .start (c :: rest) [] := by
        rw [slashesBehind_nil_iff, List.isPrefixOf_iff_prefix, List.head?_eq_some_iff]
        constructor
        · rintro ⟨more, hmore⟩
          cases hmore
          exact ⟨rfl, rfl, more, rfl⟩
        · rintro ⟨rfl, -, more, rfl⟩
          exact ⟨more, rfl⟩
      rw [List.isEmpty_cons, Bool.false_or, code, withoutComment]
      by_cases hslashes : SlashesBehind .start (c :: rest) []
      · rw [codeFrom_cons_of_slashes hslashes, trimEnd_nil, hmark.mpr hslashes]
        rfl
      · have hc : isBlank c = false := h.front c rfl
        rw [codeFrom_cons_of_not_slashes hslashes, ← List.nil_append (c :: codeFrom _ _),
          trimEnd_append_cons hc, Bool.eq_false_iff.mpr fun hprefix => hslashes (hmark.mp hprefix)]
        rfl

/-- **The form of a line is decided by its code.** -/
theorem form_eq (raw : List Char) : form raw = formOfCode (code (trim raw)) := by
  rw [formOfCode, isEmpty_code (isTrimmed_trim raw)]
  rfl

/-- The code of a line, with the blanks at its end cut off only once. -/
theorem code_trim (raw : List Char) :
    code (trim raw) = trimEnd (withoutComment (trimStart raw)) := by
  obtain ⟨blanks, hblanks, happend⟩ := exists_blanks_trimEnd (trimStart raw)
  obtain ⟨more, hmore, hcode⟩ := exists_codeFrom_append_blanks hblanks .start (trim raw)
  rw [← happend, withoutComment, show trimEnd (trimStart raw) = trim raw from rfl, hcode,
    trimEnd_append_right hmore]
  rfl

/-- **A comment behind a line does not change its form.** -/
theorem form_append_comment {raw : List Char}
    (houtside : (Quotation.start.after raw).isOutside = true) (hlast : raw.getLast? ≠ some '/')
    (comment : List Char) : form (raw ++ '/' :: '/' :: comment) = form raw := by
  rw [form_eq, form_eq, code_trim, code_trim, withoutComment, withoutComment]
  obtain ⟨blanks, hblanks, happend⟩ := exists_blanks_trimStart raw
  have hstart : Quotation.start.after blanks = .start :=
    Quotation.after_of_isUnquoting rfl fun c hc => isUnquoting_of_isBlank (hblanks c hc)
  cases hcore : trimStart raw with
  | nil =>
      -- Nothing but blanks is in front of the comment.
      rw [hcore, List.append_nil] at happend
      rw [← happend, trimStart_append_left hblanks, trimStart_eq_self fun c hc => by cases hc; rfl,
        codeFrom_cons_of_slashes (slashesBehind_nil_iff.mpr ⟨rfl, rfl, rfl⟩)]
      rfl
  | cons c core =>
      have hne : trimStart raw ≠ [] := by simp [hcore]
      rw [← happend, Quotation.after_append, hstart] at houtside
      rw [← happend, List.getLast?_append_of_ne_nil _ hne] at hlast
      rw [trimStart_append hne, codeFrom_append_comment houtside hlast, hcore]

theorem form_of_trim_eq {raw raw' : List Char} (h : trim raw = trim raw') :
    form raw = form raw' := by
  rw [form_eq, form_eq, h]

/-- What may stand behind a line: blanks, and a comment or none. -/
def IsTrailing (tail : List Char) : Prop :=
  ∃ blanks comment, (∀ c ∈ blanks, isBlank c = true) ∧ (comment = [] ∨ "//".toList <+: comment) ∧
    tail = blanks ++ comment

theorem form_append_trailing {raw tail : List Char}
    (houtside : (Quotation.start.after raw).isOutside = true) (hlast : raw.getLast? ≠ some '/')
    (htail : IsTrailing tail) : form (raw ++ tail) = form raw := by
  obtain ⟨blanks, comment, hblanks, hcomment, rfl⟩ := htail
  have hform : form (raw ++ blanks) = form raw := form_of_trim_eq (trim_append_right hblanks)
  rw [← List.append_assoc, ← hform]
  rcases hcomment with rfl | ⟨comment, rfl⟩
  · rw [List.append_nil]
  · refine form_append_comment ?_ (fun hslash => ?_) comment
    · rwa [Quotation.after_append,
        Quotation.isOutside_after fun c hc => isQuote_of_isBlank (hblanks c hc)]
    · rw [List.getLast?_append] at hslash
      rcases Option.or_eq_some_iff.mp hslash with hblank | ⟨-, hraw⟩
      · exact ne_of_class (hblanks _ (List.mem_of_getLast? hblank)) (by decide) rfl
      · exact hlast hraw

/-! ### Trailing comments -/

/-- **Trailing comments are invisible.**  Whatever comment is put behind a line that has no quoted
run open at its end, the line is read as before.  The code of a line is its longest beginning
that reaches into no two slashes outside quoted runs; it has no such slashes itself, so there is
no second comment to cut off. -/
theorem trailing_comments_are_invisible :
    (∀ (number : Nat) (raw comment : List Char),
      (Quotation.start.after raw).isOutside = true →
      parse number (raw ++ " //".toList ++ comment) = parse number raw) ∧
    (∀ line : List Char,
      IsLongestPrefix (EndsBeforeSlashes .start line) line (withoutComment line) ∧
      ¬HasSlashes .start (withoutComment line) ∧
      withoutComment (withoutComment line) = withoutComment line) := by
  refine ⟨?_, ?_⟩
  · intro number raw comment houtside
    have hsplit : raw ++ " //".toList ++ comment = (raw ++ [' ']) ++ '/' :: '/' :: comment := by
      simp
    have houtside' : (Quotation.start.after (raw ++ [' '])).isOutside = true := by
      rw [Quotation.after_append, Quotation.isOutside_after (List.forall_mem_singleton.mpr rfl)]
      exact houtside
    have hlast : (raw ++ [' ']).getLast? ≠ some '/' := by
      rw [List.getLast?_concat]
      decide
    have hform : form (raw ++ [' ']) = form raw :=
      form_of_trim_eq (trim_append_right (List.forall_mem_singleton.mpr rfl))
    rw [parse, hsplit, form_append_comment houtside' hlast, hform, parse]
  · intro line
    have hcode := not_hasSlashes_codeFrom .start line
    exact ⟨isLongestPrefix_codeFrom .start line, hcode, codeFrom_eq_self hcode⟩

/-- A plot whose title holds a comment mark, and a lone slash behind it, are read alike with and
without a comment that opens a quoted run. -/
theorem trailing_comment_behind_quoted_slashes :
    let row := "plot(a, \x22b // c\x22) /".toList
    (Quotation.start.after row).isOutside = true ∧
      parse 3 (row ++ " //".toList ++ "// isn't \x22".toList) = parse 3 row := by
  intro row
  have houtside : (Quotation.start.after row).isOutside = true := by decide
  exact ⟨houtside, trailing_comments_are_invisible.1 3 row _ houtside⟩

/-- The code of a text may be one slash shorter than its longest beginning without two slashes
outside quoted runs: both slashes of a comment mark go. -/
theorem code_is_one_slash_short :
    let line := "a = b//c".toList
    withoutComment line = "a = b".toList ∧
      "a = b/".toList <+: line ∧ ¬HasSlashes .start "a = b/".toList ∧
      ¬IsLongestPrefix (fun front => ¬HasSlashes .start front) line (withoutComment line) := by
  intro line
  have hcode : withoutComment line = "a = b".toList := by decide
  have hfront : "a = b/".toList <+: line := by decide
  have hslashes : ¬HasSlashes .start "a = b/".toList := by
    have hself : withoutComment "a = b/".toList = "a = b/".toList := by decide
    rw [← hself]
    exact not_hasSlashes_codeFrom .start _
  refine ⟨hcode, hfront, hslashes, fun hlongest => ?_⟩
  have hle := hlongest.longest _ hfront hslashes
  rw [hcode] at hle
  exact absurd hle (by decide)

end Line

end ChartScript
