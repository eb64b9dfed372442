/-
Rows that assign arithmetic.

Arithmetic text has nothing in it that a line would take for something else.  It has no two
slashes in a row, so no comment starts in it, and it is no indicator call.  So whatever it is
assigned to, a row with a name, an equals sign and the text is read as the assignment of its
expression.
-/
import ChartScript.Proofs.Arithmetic.Replacement
import ChartScript.Proofs.Script.Reading
import ChartScript.Proofs.Text.Comment

namespace ChartScript

open Text

/-! ### No comment in arithmetic -/

/-- A text that is cut into words is scanned at its front, unless a separator stands there. -/
theorem Munches.of_cons {c : Char} {cs : List Char} {ls : List Lexeme}
    (h : Munches (c :: cs) ls) (hsep : ¬Token.isSeparator c = true) :
    ∃ s more, Token.scan c cs = .ok s ∧ ls = s.lexeme :: more ∧ Munches s.rest more := by
  generalize htext : c :: cs = text at h
  cases h with
  | nil => cases htext
  | separator hseparator _ =>
      cases htext
      exact absurd hseparator hsep
  | @word word rest l more longest spelling munches =>
      rw [← htext] at longest
      exact ⟨⟨l, word, rest⟩, more, Token.scan_of_longest htext.symm longest spelling, rfl, munches⟩

/-- A division sign at the front of a text is a word by itself. -/
theorem Munches.of_div {after : List Char} {ls : List Lexeme} (h : Munches ('/' :: after) ls) :
    ∃ more, ls = .operator .div :: more ∧ Munches after more := by
  obtain ⟨s, more, hscan, rfl, hmore⟩ := h.of_cons (by decide)
  have hdiv : Token.scan '/' after = .ok ⟨.operator .div, ['/'], after⟩ :=
    Token.scan_operator .div after
  rw [hdiv] at hscan
  cases hscan
  exact ⟨more, rfl, hmore⟩

/-- A text that is cut into words is cut at each division sign in it. -/
theorem Munches.split_div {cs before after : List Char} {ls : List Lexeme} (h : Munches cs ls)
    (hcs : cs = before ++ '/' :: after) :
    ∃ front more, ls = front ++ .operator .div :: more ∧ Munches after more := by
  induction h generalizing before with
  | nil => simp at hcs
  | @separator c cs ls hsep _ ih =>
      cases before with
      | nil =>
          cases hcs
          exact absurd hsep (by decide)
      | cons b before =>
          cases hcs
          exact ih rfl
  | @word word rest l ls longest spelling more ih =>
      rcases List.append_eq_append_iff.mp hcs with ⟨inside, -, hrest⟩ | ⟨last, hword, hrest⟩
      · obtain ⟨front, tail, rfl, htail⟩ := ih hrest
        exact ⟨l :: front, tail, rfl, htail⟩
      cases last with
      | nil =>
          obtain ⟨front, tail, rfl, htail⟩ := @ih [] hrest.symm
          exact ⟨l :: front, tail, rfl, htail⟩
      | cons c last =>
          -- The division sign is in the word, so it is the word.
          obtain ⟨rfl, -⟩ := List.cons.inj hrest
          have hlength := longest.isWord.length_of_mem isBreak_div (by rw [hword]; simp)
          have hbefore : before = [] := by
            rw [hword, List.length_append, List.length_cons] at hlength
            exact List.length_eq_zero_iff.mp (by omega)
          rw [hbefore, List.nil_append] at hcs
          have hmunches := Munches.word longest spelling more
          rw [hcs] at hmunches
          obtain ⟨tail, hls, htail⟩ := hmunches.of_div
          exact ⟨[], tail, hls, htail⟩

namespace Arithmetic

/-- The reader never gets past two division signs in a row. -/
theorem Progress.after?_div_div (progress : Progress) (front more : List Lexeme) :
    progress.after? (front ++ .operator .div :: .operator .div :: more) = none := by
  rw [after?_append]
  cases progress.after? front with
  | none => rfl
  | some next => cases next <;> rfl

/-- **No comment starts in arithmetic.** -/
theorem not_slashes_of_parse {cs : List Char} {e : Arithmetic} (h : parse cs = .ok e) :
    ¬['/', '/'] <:+: cs := by
  rintro ⟨before, after, rfl⟩
  obtain ⟨tokens, hall, hderives⟩ := (parse_eq_ok_iff _ e).mp h
  have hsplit : before ++ ['/', '/'] ++ after = before ++ '/' :: '/' :: after := by simp
  obtain ⟨front, rest, hlexemes, hrest⟩ := (Token.munches_of_allFrom hall).split_div hsplit
  obtain ⟨more, rfl, -⟩ := hrest.of_div
  obtain ⟨final, hread, -⟩ := (finish_iff_derives _ e).mpr hderives
  rw [hlexemes, Progress.after?_div_div] at hread
  cases hread

end Arithmetic

/-! ### No name of the namespace -/

namespace Arithmetic

/-- The reader never gets past a name with a number behind it. -/
theorem Progress.after?_name_number (progress : Progress) (front more : List Lexeme)
    (name : String) (value : Float) :
    progress.after? (front ++ .identifier name :: .number value :: more) = none := by
  rw [after?_append]
  cases progress.after? front with
  | none => rfl
  | some next => cases next <;> rfl

/-- **No arithmetic starts with the namespace.**  Its point is no part of the name in front of it,
so it starts a number, and no expression has a number behind a name. -/
theorem not_namespaceMark_of_parse {cs : List Char} {e : Arithmetic} (h : parse cs = .ok e) :
    ¬Indicator.namespaceMark.toList <+: cs := by
  rintro ⟨rest, rfl⟩
  obtain ⟨tokens, hall, hderives⟩ := (parse_eq_ok_iff _ e).mp h
  obtain ⟨name, more, hscan, hlexemes, hmore⟩ :=
    (Token.munches_of_allFrom hall).of_cons (by decide)
  have hta : Token.scan 't' ('a' :: '.' :: rest) =
      .ok ⟨.identifier "ta", ['t', 'a'], '.' :: rest⟩ := rfl
  cases hta.symm.trans hscan
  obtain ⟨number, others, hscan, rfl, -⟩ := hmore.of_cons (by decide)
  obtain ⟨value, hvalue⟩ : ∃ value, number.lexeme = .number value := by
    rw [Token.scan_number rfl] at hscan
    split at hscan
    · cases hscan
      exact ⟨_, rfl⟩
    · cases hscan
  obtain ⟨final, hread, -⟩ := (finish_iff_derives _ e).mpr hderives
  rw [hlexemes, hvalue] at hread
  cases (Progress.after?_name_number .start [] others "ta" value).symm.trans hread

/-- Arithmetic is no indicator call. -/
theorem readCall?_of_parse {cs : List Char} {e : Arithmetic} (h : parse cs = .ok e) :
    Indicator.readCall? cs = none := by
  unfold Indicator.readCall?
  cases hmark : Indicator.namespaceMark.toList.isPrefixOf? cs with
  | none => rfl
  | some rest =>
      have hcs := List.isPrefixOf?_eq_some_iff_append_eq.mp hmark
      exact absurd ⟨rest, hcs⟩ (not_namespaceMark_of_parse h)

end Arithmetic

/-! ### The characters of identifiers -/

/-- A character that is no blank, and none at which a line is taken apart. -/
structure IsPlain (c : Char) : Prop where
  blank : isBlank c = false
  equals : c ≠ '='
  slash : c ≠ '/'
  paren : c ≠ '('

theorem isPlain_of_isIdentifierRest {c : Char} (h : isIdentifierRest c = true) : IsPlain c := by
  refine ⟨?_, ?_, ?_, ?_⟩
  · have hcode := code_of_isIdentifierRest h
    rw [Bool.eq_false_iff]
    intro hblank
    simp only [isBlank, Bool.or_eq_true, Bool.and_eq_true, decide_eq_true_eq, beq_iff_eq]
      at hblank
    omega
  all_goals
    rintro rfl
    cases h

/-- The characters of identifiers are plain. -/
theorem isPlain_of_mem {name : List Char} (h : isIdentifier name = true) :
    ∀ c ∈ name, IsPlain c :=
  fun _ hc => isPlain_of_isIdentifierRest (isIdentifierRest_of_mem h hc)

theorem isTrimmed_of_isIdentifier {name : List Char} (h : isIdentifier name = true) :
    IsTrimmed name :=
  ⟨fun c hc => (isPlain_of_mem h c (List.mem_of_mem_head? hc)).blank,
    fun c hc => (isPlain_of_mem h c (List.mem_of_getLast? hc)).blank⟩

/-! ### Rows -/

namespace Line

/-- A row assigns the expression that a text is. -/
structure Assigns (row target text : List Char) (e : Arithmetic) : Prop where
  form : form row = .assignment target text
  parse : Arithmetic.parse text = .ok e

/-- A text with an equals sign is what is in front of the first one and what is behind it. -/
theorem eq_append_of_dropWhile {code right : List Char} {c : Char}
    (h : code.dropWhile (· != '=') = c :: right) :
    code = code.takeWhile (· != '=') ++ '=' :: right := by
  have happend := List.takeWhile_append_dropWhile (p := (· != '=')) (l := code)
  have hfront := List.head?_dropWhile_not (· != '=') code
  rw [h] at happend hfront
  obtain rfl : c = '=' := by simpa using hfront
  exact happend.symm

/-- An assignment is cut at its first equals sign. -/
theorem assignmentForm_eq {code target text : List Char}
    (h : assignmentForm code = .assignment target text) :
    ∃ left right, code = left ++ '=' :: right ∧ target = trim left ∧ text = trim right := by
  unfold assignmentForm at h
  cases hdrop : code.dropWhile (· != '=') with
  | nil =>
      rw [hdrop] at h
      cases h
  | cons c right =>
      rw [hdrop] at h
      simp only at h
      split at h
      · cases h
      split at h
      · cases h
        exact ⟨_, right, eq_append_of_dropWhile hdrop, rfl, rfl⟩
      split at h <;> cases h

/-- What a row assigns is written in it, without blanks at its ends. -/
theorem text_of_form {row target text : List Char} (h : form row = .assignment target text) :
    IsTrimmed text ∧ ∀ c ∈ text, c ∈ row := by
  have hcode : assignmentForm (code (trim row)) = .assignment target text := by
    unfold form at h
    simp only at h
    split at h
    · cases h
    split at h
    · cases h
    split at h
    · cases h
    · exact h
  obtain ⟨left, right, hsplit, -, rfl⟩ := assignmentForm_eq hcode
  refine ⟨isTrimmed_trim right, fun c hc => ?_⟩
  have hmem : c ∈ code (trim row) := by
    rw [hsplit]
    exact List.mem_append_right _ (List.mem_cons_of_mem _ (mem_of_mem_trim hc))
  have hline : c ∈ trim row :=
    (codeFrom_isPrefix _ _).subset ((trimEnd_isPrefix _).subset hmem)
  exact mem_of_mem_trim hline

/-- **A row that assigns arithmetic is read as an assignment of its expression.** -/
theorem parse_of_assigns {row target text : List Char} {e : Arithmetic}
    (h : Assigns row target text e) (number : Nat) :
    Line.parse number row =
      .ok (some (.statement ⟨number, .assign (String.ofList target) (.arithmetic e)⟩)) := by
  have hexpression : Expression.parse text = .ok (.arithmetic e) := by
    simp only [Expression.parse, (text_of_form h.form).1.trim_eq,
      Arithmetic.readCall?_of_parse h.parse, h.parse]
  simp only [Line.parse, h.form, meaning, hexpression]

/-! ### Writing a row -/

/-- The row that assigns a text to a name. -/
def written (target text : List Char) : List Char :=
  target ++ " = ".toList ++ text

/-- A row that starts with a name is no call, whichever word the name starts with. -/
theorem call?_written (word : String) (hword : word.toList.all isIdentifierRest = true)
    {target : List Char} (htarget : isIdentifier target = true) (text : List Char) :
    call? word (written target text) = none := by
  unfold call?
  cases hrest : word.toList.isPrefixOf? (written target text) with
  | none => rfl
  | some rest =>
      have happend : word.toList ++ rest = target ++ (" = ".toList ++ text) := by
        rw [List.isPrefixOf?_eq_some_iff_append_eq.mp hrest, written, List.append_assoc]
      have hopen : (trimStart rest).head? ≠ some '(' := by
        rcases List.append_eq_append_iff.mp happend with ⟨more, hname, rfl⟩ | ⟨more, hname, hmore⟩
        · cases more with
          | nil => exact fun h => by cases h
          | cons c more =>
              -- The name goes on behind the word.
              have hc := isPlain_of_mem htarget c (by rw [hname]; simp)
              rw [trimStart_eq_self (by simpa using hc.blank)]
              simpa using hc.paren
        · cases more with
          | nil =>
              rw [List.nil_append] at hmore
              rw [← hmore]
              exact fun h => by cases h
          | cons c more =>
              -- The word does not go on behind the name, where a blank stands.
              have hc := isPlain_of_isIdentifierRest
                (List.all_eq_true.mp hword c (by rw [hname]; simp))
              obtain ⟨rfl, -⟩ := List.cons.inj hmore
              cases hc.blank
      simp only [beq_iff_eq, if_neg hopen]

theorem assignmentForm_written {target text : List Char} (htarget : isIdentifier target = true)
    (htext : IsTrimmed text) : assignmentForm (written target text) = .assignment target text := by
  have hleft : ∀ c ∈ target ++ [' '], (c != '=') = true := by
    intro c hmem
    rcases List.mem_append.mp hmem with hname | hblank
    · simpa using (isPlain_of_mem htarget c hname).equals
    · rw [List.mem_singleton.mp hblank]
      decide
  have hsplit : written target text = target ++ [' '] ++ '=' :: ' ' :: text := by
    simp [written]
  have htake : (written target text).takeWhile (· != '=') = target ++ [' '] := by
    rw [hsplit, List.takeWhile_append_of_pos hleft]
    simp
  have hdrop : (written target text).dropWhile (· != '=') = '=' :: ' ' :: text := by
    rw [hsplit, List.dropWhile_append_of_pos hleft]
    rfl
  have htrim : trim (target ++ [' ']) = target := by
    rw [trim_append_right (List.forall_mem_singleton.mpr rfl),
      (isTrimmed_of_isIdentifier htarget).trim_eq]
  have htrim' : trim (' ' :: text) = text := by
    rw [← List.singleton_append, trim_append_left (List.forall_mem_singleton.mpr rfl),
      htext.trim_eq]
  simp only [assignmentForm, hdrop, htake, htrim, htrim', htarget]
  simp

/-- **A name, an equals sign and a text without a comment mark are an assignment.** -/
theorem form_written {target text : List Char} (htarget : isIdentifier target = true)
    (htext : IsTrimmed text) (hne : text ≠ []) (hslashes : ¬['/', '/'] <:+: text) :
    form (written target text) = .assignment target text := by
  obtain ⟨first, rest, rfl⟩ := List.exists_cons_of_ne_nil (ne_nil_of_isIdentifier htarget)
  have hplain := isPlain_of_mem htarget
  have hfirst : IsPlain first := hplain first List.mem_cons_self
  have htrimmed : IsTrimmed (written (first :: rest) text) := by
    refine ⟨fun c hc => ?_, fun c hc => ?_⟩
    · cases hc
      exact hfirst.blank
    · rw [written, List.getLast?_append, List.getLast?_eq_some_getLast hne] at hc
      cases hc
      exact htext.back _ (List.getLast?_eq_some_getLast hne)
  have hnone : ¬['/', '/'] <:+: written (first :: rest) text := by
    refine not_slashes_append (fun hmem => ?_) hslashes
    rcases List.mem_append.mp hmem with hname | hsign
    · exact (hplain _ hname).slash rfl
    · exact absurd hsign (by decide)
  have hcode : code (written (first :: rest) text) = written (first :: rest) text := by
    rw [code, withoutComment, codeFrom_of_not_slashes hnone, trimEnd_eq_self htrimmed.back]
  have hblank : ((written (first :: rest) text).isEmpty ||
      "//".toList.isPrefixOf (written (first :: rest) text)) = false := by
    have hslash : ('/' == first) = false := beq_eq_false_iff_ne.mpr hfirst.slash.symm
    simp [written, List.isPrefixOf, hslash]
  unfold form
  simp only [htrimmed.trim_eq, hblank, hcode,
    call?_written "indicator" (by decide) htarget, call?_written "plot" (by decide) htarget,
    assignmentForm_written htarget htext]
  rfl

end Line

/-! ### Writing a row with a name replaced -/

namespace Arithmetic

/-- Replacing a name puts no blank at an end of the text. -/
theorem isTrimmed_replaceText {cs : List Char} (h : IsTrimmed cs) (name : String)
    (inner : List Char) : IsTrimmed (replaceText name inner cs) := by
  refine ⟨fun c hc => ?_, fun c hc => ?_⟩
  · rcases branches_replaceText name inner cs with
      hsame | ⟨common, before, d, after, hd, rfl, hbranch⟩
    · rw [hsame] at hc
      exact h.front c hc
    rw [hbranch] at hc
    cases common with
    | nil =>
        cases hc
        rcases hd.1 with rfl | rfl | ⟨operation, rfl⟩
        · decide
        · decide
        · cases operation <;> decide
    | cons b common => exact h.front c hc
  · rcases getLast?_replaceText name inner cs with hsame | hparen
    · rw [hsame] at hc
      exact h.back c hc
    · rw [hparen] at hc
      cases hc
      decide

theorem ne_nil_of_parse {cs : List Char} {e : Arithmetic} (h : parse cs = .ok e) : cs ≠ [] := by
  rintro rfl
  rw [parse, Token.all, Token.allFrom] at h
  cases h

end Arithmetic

namespace Line

/-- **In place of two rows that assign arithmetic one can be written that assigns the second
expression, with the first one in place of its target.** -/
theorem assigns_replaced {first second x y innerText outerText : List Char}
    {inner outer : Arithmetic} (hfirst : Assigns first x innerText inner)
    (hsecond : Assigns second y outerText outer) :
    let text := Arithmetic.replaceText (String.ofList x) innerText outerText
    Assigns (written y text) y text (outer.replace (String.ofList x) inner) := by
  intro text
  have hparse : Arithmetic.parse text = .ok (outer.replace (String.ofList x) inner) :=
    Arithmetic.parse_replaceText hfirst.parse hsecond.parse _
  have htrimmed : IsTrimmed text :=
    Arithmetic.isTrimmed_replaceText (text_of_form hsecond.form).1 _ innerText
  have hform : form (written y text) = .assignment y text :=
    form_written (isIdentifier_of_form hsecond.form) htrimmed (Arithmetic.ne_nil_of_parse hparse)
      (Arithmetic.not_slashes_of_parse hparse)
  exact ⟨hform, hparse⟩

/-- The row that is written is one row. -/
theorem newline_not_mem_written {first second x y innerText outerText : List Char}
    (hfirst : form first = .assignment x innerText)
    (hsecond : form second = .assignment y outerText) (hfirstRow : '\n' ∉ first)
    (hsecondRow : '\n' ∉ second) :
    '\n' ∉ written y (Arithmetic.replaceText (String.ofList x) innerText outerText) := by
  have hinner : ∀ c ∈ innerText, c ≠ '\n' := fun c hc heq =>
    hfirstRow (heq ▸ (text_of_form hfirst).2 c hc)
  have houter : ∀ c ∈ outerText, c ≠ '\n' := fun c hc heq =>
    hsecondRow (heq ▸ (text_of_form hsecond).2 c hc)
  have htext : ∀ c ∈ Arithmetic.replaceText (String.ofList x) innerText outerText, c ≠ '\n' :=
    Arithmetic.forall_mem_replaceText _ (by decide) (by decide) hinner houter
  intro hmem
  rcases List.mem_append.mp hmem with hfront | hmem
  · rcases List.mem_append.mp hfront with hname | hsign
    · cases (isPlain_of_mem (isIdentifier_of_form hsecond) _ hname).blank
    · exact absurd hsign (by decide)
  · exact htext _ hmem rfl

end Line

end ChartScript
