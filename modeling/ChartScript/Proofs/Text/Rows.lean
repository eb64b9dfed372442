/-
Texts as rows.

A text is given here by its rows, the pieces between its line feeds.  Every text is of this
form, and its lines are nearly its rows: a line has lost the carriage return in front of its
line feed, and the last row makes no line if nothing stands in it.  Whoever trims what he
reads sees neither of the two, and may take rows for lines.
-/
import Mathlib.Data.List.Forall2
import Mathlib.Data.List.TakeWhile
import ChartScript.Text.Blank
import ChartScript.Text.Lines

namespace ChartScript.Text

/-! ### Blanks at the ends -/

section

variable {cs blanks : List Char}

theorem trimStart_append_left (h : ∀ c ∈ blanks, isBlank c = true) :
    trimStart (blanks ++ cs) = trimStart cs :=
  List.dropWhile_append_of_pos h

theorem trimEnd_append_right (h : ∀ c ∈ blanks, isBlank c = true) :
    trimEnd (cs ++ blanks) = trimEnd cs := by
  have hreverse : ∀ c ∈ blanks.reverse, isBlank c = true := by simpa using h
  rw [trimEnd, List.reverse_append, List.dropWhile_append_of_pos hreverse]
  rfl

/-- Blanks in front of a text are trimmed off. -/
theorem trim_append_left (h : ∀ c ∈ blanks, isBlank c = true) :
    trim (blanks ++ cs) = trim cs := by
  rw [trim, trimStart_append_left h]
  rfl

/-- Blanks behind a text are trimmed off. -/
theorem trim_append_right (h : ∀ c ∈ blanks, isBlank c = true) :
    trim (cs ++ blanks) = trim cs := by
  rw [trim, trimStart, List.dropWhile_append]
  split
  · rename_i hall
    -- All of the text is blank, and so is the text with the blanks behind it.
    rw [trim, trimStart, List.isEmpty_iff.mp hall]
    exact congrArg trimEnd (List.dropWhile_eq_nil_iff.mpr h)
  · exact trimEnd_append_right h

/-- The front of a text that is not all blank is trimmed whatever stands behind it. -/
theorem trimStart_append {ds : List Char} (h : trimStart cs ≠ []) :
    trimStart (cs ++ ds) = trimStart cs ++ ds := by
  rw [trimStart, List.dropWhile_append, if_neg]
  · rfl
  · rw [List.isEmpty_iff]
    exact h

/-- The end of a text is trimmed whatever stands in front of a character that is no blank. -/
theorem trimEnd_append_cons {c : Char} (h : isBlank c = false) (cs ds : List Char) :
    trimEnd (cs ++ c :: ds) = cs ++ c :: trimEnd ds := by
  have hstop : (c :: cs.reverse).dropWhile isBlank = c :: cs.reverse := by
    rw [List.dropWhile_cons_of_neg (by rw [h]; decide)]
  have hsplit : (cs ++ c :: ds).reverse = ds.reverse ++ c :: cs.reverse := by simp
  rw [trimEnd, hsplit, List.dropWhile_append, hstop, trimEnd]
  split
  · rename_i hblank
    rw [List.isEmpty_iff.mp hblank]
    simp
  · simp

/-- Nothing is left of blanks. -/
theorem trim_of_blanks (h : ∀ c ∈ blanks, isBlank c = true) : trim blanks = [] := by
  rw [← List.append_nil blanks, trim_append_left h, trim_nil]

end

/-- What is decided for the characters of a text one by one holds for all of them. -/
theorem forall_mem_of_all {p : Char → Prop} [DecidablePred p] {cs : List Char}
    (h : cs.all (fun c => decide (p c)) = true) : ∀ c ∈ cs, p c :=
  fun c hc => of_decide_eq_true (List.all_eq_true.mp h c hc)

/-- A character of a class differs from one outside it. -/
theorem ne_of_class {p : Char → Bool} {c d : Char} (hc : p c = true) (hd : p d = false) :
    c ≠ d := by
  rintro rfl
  rw [hc] at hd
  cases hd

theorem isBlank_of_isDigit {c : Char} (h : c.isDigit = true) : isBlank c = false := by
  obtain ⟨hlow, hhigh⟩ := Char.isDigit_iff_toNat.mp h
  have hzero : '0'.toNat = 48 := rfl
  have hnine : '9'.toNat = 57 := rfl
  simp [isBlank]
  omega

/-- No blank stands at either end of a text. -/
structure IsTrimmed (cs : List Char) : Prop where
  front : ∀ c ∈ cs.head?, isBlank c = false
  back : ∀ c ∈ cs.getLast?, isBlank c = false

theorem trimStart_eq_self {cs : List Char} (h : ∀ c ∈ cs.head?, isBlank c = false) :
    trimStart cs = cs := by
  cases cs with
  | nil => rfl
  | cons c rest =>
      have hc : isBlank c = false := h c rfl
      simp [trimStart, hc]

theorem trimEnd_eq_self {cs : List Char} (h : ∀ c ∈ cs.getLast?, isBlank c = false) :
    trimEnd cs = cs := by
  have hreverse : trimStart cs.reverse = cs.reverse := by
    refine trimStart_eq_self fun c hc => h c ?_
    rwa [List.head?_reverse] at hc
  show (trimStart cs.reverse).reverse = cs
  rw [hreverse, List.reverse_reverse]

theorem IsTrimmed.trim_eq {cs : List Char} (h : IsTrimmed cs) : trim cs = cs := by
  rw [trim, trimStart_eq_self h.front, trimEnd_eq_self h.back]

/-- A text without blanks is trimmed. -/
theorem isTrimmed_of_forall {cs : List Char} (h : ∀ c ∈ cs, isBlank c = false) : IsTrimmed cs :=
  ⟨fun c hc => h c (List.mem_of_mem_head? hc), fun c hc => h c (List.mem_of_mem_getLast? hc)⟩

theorem head?_trimStart (cs : List Char) : ∀ c ∈ (trimStart cs).head?, isBlank c = false := by
  intro c hc
  have hfront := List.head?_dropWhile_not isBlank cs
  rw [show cs.dropWhile isBlank = trimStart cs from rfl, hc] at hfront
  exact hfront

/-- What is trimmed off the front of a text is blank. -/
theorem exists_blanks_trimStart (cs : List Char) :
    ∃ blanks, (∀ c ∈ blanks, isBlank c = true) ∧ blanks ++ trimStart cs = cs :=
  ⟨cs.takeWhile isBlank, List.all_eq_true.mp List.all_takeWhile, List.takeWhile_append_dropWhile⟩

/-- What is trimmed off the end of a text is blank. -/
theorem exists_blanks_trimEnd (cs : List Char) :
    ∃ blanks, (∀ c ∈ blanks, isBlank c = true) ∧ trimEnd cs ++ blanks = cs := by
  refine ⟨(cs.reverse.takeWhile isBlank).reverse, fun c hc => ?_, ?_⟩
  · exact List.all_eq_true.mp List.all_takeWhile c (List.mem_reverse.mp hc)
  · rw [trimEnd, ← List.reverse_append, List.takeWhile_append_dropWhile, List.reverse_reverse]

theorem trimEnd_isPrefix (cs : List Char) : trimEnd cs <+: cs := by
  obtain ⟨blanks, -, happend⟩ := exists_blanks_trimEnd cs
  exact ⟨blanks, happend⟩

/-- Nothing is left of a text exactly if it is all blank. -/
theorem isEmpty_trim_iff (cs : List Char) :
    (trim cs).isEmpty = true ↔ ∀ c ∈ cs, isBlank c = true := by
  constructor
  · intro h
    obtain ⟨front, hfront, hstart⟩ := exists_blanks_trimStart cs
    obtain ⟨back, hback, hend⟩ := exists_blanks_trimEnd (trimStart cs)
    rw [show trimEnd (trimStart cs) = [] from List.isEmpty_iff.mp h, List.nil_append] at hend
    rw [← hstart, ← hend]
    exact List.forall_mem_append.mpr ⟨hfront, hback⟩
  · intro h
    rw [trim_of_blanks h]
    rfl

/-- What is trimmed has no blank at its ends. -/
theorem isTrimmed_trim (cs : List Char) : IsTrimmed (trim cs) := by
  refine ⟨?_, ?_⟩
  · intro c hc
    obtain ⟨after, hafter⟩ := trimEnd_isPrefix (trimStart cs)
    refine head?_trimStart cs c ?_
    have hfront : (trimEnd (trimStart cs)).head? = some c := hc
    rw [← hafter, List.head?_append, hfront]
    rfl
  · intro c hc
    rw [trim, trimEnd, List.getLast?_reverse] at hc
    exact head?_trimStart _ c hc

/-- Trimming takes characters off a text and adds none. -/
theorem mem_of_mem_trim {cs : List Char} {c : Char} (h : c ∈ trim cs) : c ∈ cs :=
  (List.dropWhile_suffix isBlank).subset ((trimEnd_isPrefix _).subset h)

/-! ### Rows and lines -/

/-- The text of some rows: a line feed stands between each two of them. -/
def ofRows (rows : List (List Char)) : List Char :=
  ['\n'].intercalate rows

@[simp] theorem ofRows_nil : ofRows [] = [] := rfl

@[simp] theorem ofRows_singleton (row : List Char) : ofRows [row] = row :=
  List.intercalate_singleton

theorem ofRows_cons_cons (row next : List Char) (rest : List (List Char)) :
    ofRows (row :: next :: rest) = row ++ '\n' :: ofRows (next :: rest) := by
  simp [ofRows]

/-- A row without the carriage return at its end, if there is one. -/
def withoutReturn (row : List Char) : List Char :=
  match row.reverse with
  | '\r' :: before => before.reverse
  | whole => whole.reverse

theorem trim_withoutReturn (row : List Char) : trim (withoutReturn row) = trim row := by
  unfold withoutReturn
  split
  · rename_i before hreverse
    have hrow : row = before.reverse ++ ['\r'] := by
      rw [← List.reverse_reverse row, hreverse, List.reverse_cons]
    rw [hrow, trim_append_right (List.forall_mem_singleton.mpr rfl)]
  · rw [List.reverse_reverse]

/-- A row in front of a line feed is a line. -/
theorem linesFrom_append_newline {row : List Char} (h : '\n' ∉ row) (current rest : List Char) :
    linesFrom current (row ++ '\n' :: rest) =
      withoutReturn (current.reverse ++ row) :: lines rest := by
  induction row generalizing current with
  | nil =>
      rw [List.append_nil, withoutReturn, List.reverse_reverse]
      rfl
  | cons c cs ih =>
      have hc : c ≠ '\n' := fun hc => h (hc ▸ List.mem_cons_self)
      have hcs : '\n' ∉ cs := fun hmem => h (List.mem_cons_of_mem c hmem)
      have hstep : linesFrom current (c :: (cs ++ '\n' :: rest)) =
          linesFrom (c :: current) (cs ++ '\n' :: rest) := by
        rw [linesFrom]
        exact fun hnewline => hc hnewline
      rw [List.cons_append, hstep, ih hcs, List.reverse_cons, List.append_assoc,
        List.singleton_append]

/-- The last row is a line unless nothing stands in it. -/
theorem linesFrom_last {row : List Char} (h : '\n' ∉ row) (current : List Char) :
    linesFrom current row =
      if (current.reverse ++ row).isEmpty then [] else [current.reverse ++ row] := by
  induction row generalizing current with
  | nil => simp [linesFrom]
  | cons c cs ih =>
      have hc : c ≠ '\n' := fun hc => h (hc ▸ List.mem_cons_self)
      have hcs : '\n' ∉ cs := fun hmem => h (List.mem_cons_of_mem c hmem)
      have hstep : linesFrom current (c :: cs) = linesFrom (c :: current) cs := by
        rw [linesFrom]
        exact fun hnewline => hc hnewline
      rw [hstep, ih hcs, List.reverse_cons, List.append_assoc, List.singleton_append]

/-! ### Padding -/

/-- A row is another one with blanks in front of it or behind it.  A carriage return at its
end, which makes its line end in two characters, is such a blank. -/
def Pads (row padded : List Char) : Prop :=
  ∃ before after, (∀ c ∈ before ++ after, isBlank c = true ∧ c ≠ '\n') ∧
    padded = before ++ row ++ after

theorem Pads.refl (row : List Char) : Pads row row :=
  ⟨[], [], by simp, by simp⟩

theorem Pads.trim_eq {row padded : List Char} (h : Pads row padded) : trim padded = trim row := by
  obtain ⟨before, after, hblank, rfl⟩ := h
  have hbefore : ∀ c ∈ before, isBlank c = true := fun c hc =>
    (hblank c (List.mem_append_left _ hc)).1
  have hafter : ∀ c ∈ after, isBlank c = true := fun c hc =>
    (hblank c (List.mem_append_right _ hc)).1
  rw [trim_append_right hafter, trim_append_left hbefore]

theorem Pads.newline_not_mem {row padded : List Char} (h : Pads row padded) (hrow : '\n' ∉ row) :
    '\n' ∉ padded := by
  obtain ⟨before, after, hblank, rfl⟩ := h
  intro hmem
  rcases List.mem_append.mp hmem with hfront | hafter
  · rcases List.mem_append.mp hfront with hbefore | hin
    · exact (hblank _ (List.mem_append_left _ hbefore)).2 rfl
    · exact hrow hin
  · exact (hblank _ (List.mem_append_right _ hafter)).2 rfl

theorem newline_not_mem_of_pads {rows padded : List (List Char)}
    (h : List.Forall₂ Pads rows padded) (hrows : ∀ row ∈ rows, '\n' ∉ row) :
    ∀ row ∈ padded, '\n' ∉ row := by
  induction h with
  | nil => exact hrows
  | cons hrow _ ih =>
      intro row hmem
      rcases List.mem_cons.mp hmem with rfl | hmore
      · exact hrow.newline_not_mem (hrows _ List.mem_cons_self)
      · exact ih (fun r hr => hrows r (List.mem_cons_of_mem _ hr)) row hmore

/-- Lines that end in two characters are lines that end in one, with padding. -/
theorem exists_pads_of_returns (rows : List (List Char)) :
    ∃ padded, List.Forall₂ Pads rows padded ∧ ['\r', '\n'].intercalate rows = ofRows padded := by
  induction rows with
  | nil => exact ⟨[], .nil, rfl⟩
  | cons row rest ih =>
      obtain ⟨padded, hpads, heq⟩ := ih
      cases hpads with
      | nil => exact ⟨[row], .cons (.refl row) .nil, by simp⟩
      | @cons next _ more _ hnext hmore =>
          have hreturn : Pads row (row ++ ['\r']) :=
            ⟨[], ['\r'], List.forall_mem_singleton.mpr ⟨rfl, by decide⟩, rfl⟩
          refine ⟨(row ++ ['\r']) :: _, .cons hreturn (.cons hnext hmore), ?_⟩
          rw [List.intercalate_cons_cons, heq, ofRows_cons_cons]
          simp

end ChartScript.Text
