/-
Reading a script as a whole.

Lines are numbered upwards, and what a line means carries its number, so statements and
faults come in ascending order.  Reading the whole script succeeds, with the statements of
all its lines, if no line is faulty, and fails with the first fault otherwise.
-/
import ChartScript.Script.Basic

namespace ChartScript

open Text

namespace Line

/-- A line that has been read means what its form does. -/
theorem meaning_of_parse_eq_ok {number : Nat} {raw : List Char} {line : Option Line}
    (h : parse number raw = .ok line) : meaning number (form raw) = .ok line := by
  unfold parse at h
  split at h
  · rename_i meant hmeant
    cases h
    exact hmeant
  · cases h

/-- A faulty line has the fault that its form has. -/
theorem meaning_of_parse_eq_error {number : Nat} {raw : List Char} {e : ScriptError}
    (h : parse number raw = .error e) : meaning number (form raw) = .error e.fault := by
  unfold parse at h
  split at h
  · cases h
  · rename_i fault hfault
    cases h
    exact hfault

/-- A statement carries the number of its line. -/
theorem line_of_parse_eq_statement {number : Nat} {raw : List Char} {s : Statement}
    (h : parse number raw = .ok (some (.statement s))) : s.line = number := by
  have hmeaning := meaning_of_parse_eq_ok h
  unfold meaning at hmeaning
  split at hmeaning
  · cases hmeaning
  · cases hmeaning
  · split at hmeaning
    · cases hmeaning; rfl
    · cases hmeaning
  · split at hmeaning
    · cases hmeaning; rfl
    · cases hmeaning
  · cases hmeaning
  · cases hmeaning

/-- Only an identifier is assigned to. -/
theorem isIdentifier_of_form {raw target expression : List Char}
    (h : form raw = .assignment target expression) : isIdentifier target = true := by
  have hassignment : ∀ code, assignmentForm code = .assignment target expression →
      isIdentifier target = true := by
    intro code hcode
    unfold assignmentForm at hcode
    split at hcode
    · cases hcode
    · simp only at hcode
      split at hcode
      · cases hcode
      split at hcode
      · rename_i hidentifier
        cases hcode
        exact hidentifier
      split at hcode <;> cases hcode
  unfold form at h
  simp only at h
  split at h
  · cases h
  split at h
  · cases h
  split at h
  · cases h
  · exact hassignment _ h

/-- A line that is read as an assignment has the form of one. -/
theorem exists_form_of_parse_eq_statement {number : Nat} {raw : List Char} {s : Statement}
    {target : String} {expression : Expression}
    (h : parse number raw = .ok (some (.statement s)))
    (hs : s.action = .assign target expression) :
    ∃ written text, form raw = .assignment written text ∧ target = String.ofList written ∧
      Expression.parse text = .ok expression := by
  have hmeaning := meaning_of_parse_eq_ok h
  cases hform : form raw with
  | assignment written right =>
      rw [hform] at hmeaning
      simp only [meaning] at hmeaning
      split at hmeaning
      · rename_i hparse
        cases hmeaning
        cases hs
        exact ⟨written, right, rfl, rfl, hparse⟩
      · cases hmeaning
  | plot code arguments =>
      rw [hform] at hmeaning
      simp only [meaning] at hmeaning
      split at hmeaning
      · cases hmeaning
        cases hs
      · cases hmeaning
  | blank => rw [hform] at hmeaning; cases hmeaning
  | declaration arguments => rw [hform] at hmeaning; cases hmeaning
  | invalidTarget written => rw [hform] at hmeaning; cases hmeaning
  | unrecognised code => rw [hform] at hmeaning; cases hmeaning

/-- The target of an assignment that a line is read as is an identifier. -/
theorem isIdentifier_of_parse_eq_statement {number : Nat} {raw : List Char} {s : Statement}
    {target : String} {expression : Expression}
    (h : parse number raw = .ok (some (.statement s)))
    (hs : s.action = .assign target expression) : isIdentifier target.toList = true := by
  obtain ⟨written, text, hform, rfl, -⟩ := exists_form_of_parse_eq_statement h hs
  rw [String.toList_ofList]
  exact isIdentifier_of_form hform

/-- A malformed call is what a line assigns. -/
theorem exists_form_of_malformedCall {number : Nat} {raw : List Char} {e : ScriptError}
    {call : String} {error : ParseError} (h : parse number raw = .error e)
    (he : e.fault = .malformedCall call error) :
    ∃ written text, form raw = .assignment written text ∧
      Expression.parse text = .error (.malformedCall call error) := by
  have hmeaning := meaning_of_parse_eq_error h
  rw [he] at hmeaning
  cases hform : form raw with
  | assignment written right =>
      rw [hform] at hmeaning
      simp only [meaning] at hmeaning
      split at hmeaning
      · cases hmeaning
      · rename_i fault hfault
        cases hmeaning
        exact ⟨written, right, rfl, hfault⟩
  | plot code arguments =>
      rw [hform] at hmeaning
      simp only [meaning] at hmeaning
      split at hmeaning <;> cases hmeaning
  | blank => rw [hform] at hmeaning; cases hmeaning
  | declaration arguments => rw [hform] at hmeaning; cases hmeaning
  | invalidTarget written => rw [hform] at hmeaning; cases hmeaning
  | unrecognised code => rw [hform] at hmeaning; cases hmeaning

/-- A fault carries the number of its line. -/
theorem line_of_parse_eq_error {number : Nat} {raw : List Char} {e : ScriptError}
    (h : parse number raw = .error e) : e.line = number := by
  unfold parse at h
  split at h
  · cases h
  · cases h; rfl

end Line

namespace Script

/-- The statement that a line has been read as, if it is one. -/
def statement? : Except ScriptError Line → Option Statement
  | .error _ => none
  | .ok (.statement s) => some s
  | .ok (.declaration _) => none

/-- The number that a line still carries when it has been read. -/
def number? : Except ScriptError Line → Option Nat
  | .error e => some e.line
  | .ok (.statement s) => some s.line
  | .ok (.declaration _) => none

/-- No line of a list is faulty. -/
def Faultless (lines : List (Except ScriptError Line)) : Prop :=
  ∀ e, .error e ∉ lines

/-! ### Numbers ascend -/

theorem numbered_ascends (cs : List Char) : (numbered cs).Pairwise fun a b => a.1 < b.1 := by
  have hnumbers : (numbered cs).map (·.1) = List.range' 1 (lines cs).length := by
    rw [← List.zipIdx_map_snd, numbered, List.map_map]
    rfl
  refine List.pairwise_map.mp ?_
  rw [hnumbers]
  exact List.pairwise_lt_range'

theorem number_of_readLine? {line : Nat × List Char} {item : Except ScriptError Line} {n : Nat}
    (h : readLine? line = some item) (hn : number? item = some n) : n = line.1 := by
  unfold readLine? at h
  split at h
  · cases h
  · rename_i meant hparse
    cases h
    cases meant with
    | declaration title => cases hn
    | statement s =>
        cases hn
        exact Line.line_of_parse_eq_statement hparse
  · rename_i e hparse
    cases h
    cases hn
    exact Line.line_of_parse_eq_error hparse

/-- The numbers that some lines still carry ascend. -/
def Ascends (lines : List (Except ScriptError Line)) : Prop :=
  lines.Pairwise fun a b => ∀ m n, number? a = some m → number? b = some n → m < n

theorem readLines_ascends (cs : List Char) : Ascends (readLines cs) := by
  unfold Ascends readLines
  rw [List.pairwise_filterMap]
  refine (numbered_ascends cs).imp ?_
  intro x y hlt a ha b hb m n hm hn
  rw [number_of_readLine? ha hm, number_of_readLine? hb hn]
  exact hlt

theorem number_of_statement? {item : Except ScriptError Line} {s : Statement}
    (h : statement? item = some s) : number? item = some s.line := by
  unfold statement? at h
  split at h
  · cases h
  · cases h; rfl
  · cases h

/-- The statements among ascending lines ascend. -/
theorem Ascends.statements {lines : List (Except ScriptError Line)} (h : Ascends lines) :
    (lines.filterMap statement?).Pairwise fun a b => a.line < b.line := by
  rw [List.pairwise_filterMap]
  refine List.Pairwise.imp ?_ h
  intro x y hlt a ha b hb
  exact hlt _ _ (number_of_statement? ha) (number_of_statement? hb)

/-- The statements in front of a fault are on lines above it. -/
theorem Ascends.line_lt_of_fault {before after : List (Except ScriptError Line)}
    {e : ScriptError} (h : Ascends (before ++ .error e :: after)) {s : Statement}
    (hs : s ∈ before.filterMap statement?) : s.line < e.line := by
  obtain ⟨item, hmem, hitem⟩ := List.mem_filterMap.mp hs
  exact (List.pairwise_append.mp h).2.2 item hmem _ List.mem_cons_self _ _
    (number_of_statement? hitem) rfl

/-- The statements on lines above that of a statement are those in front of it. -/
theorem mem_and_line_lt_iff {before after : List Statement} {s : Statement}
    (hascend : (before ++ s :: after).Pairwise fun a b => a.line < b.line) (t : Statement) :
    (t ∈ before ++ s :: after ∧ t.line < s.line) ↔ t ∈ before := by
  obtain ⟨-, htail, hcross⟩ := List.pairwise_append.mp hascend
  constructor
  · rintro ⟨hmem, hlt⟩
    rcases List.mem_append.mp hmem with hbefore | hrest
    · exact hbefore
    · rcases List.mem_cons.mp hrest with rfl | hafter
      · exact absurd hlt (Nat.lt_irrefl _)
      · have := (List.pairwise_cons.mp htail).1 t hafter
        omega
  · intro ht
    exact ⟨List.mem_append_left _ ht, hcross t ht s List.mem_cons_self⟩

/-! ### The whole script -/

/-- A script that has been read has no faulty line, and consists of the statements of its
lines. -/
theorem collect_eq_ok {script result : Script} {lines : List (Except ScriptError Line)}
    (h : script.collect lines = .ok result) :
    Faultless lines ∧ result.statements = script.statements ++ lines.filterMap statement? := by
  induction lines generalizing script with
  | nil =>
      cases h
      exact ⟨fun e he => absurd he (List.not_mem_nil), by simp⟩
  | cons item rest ih =>
      match item, h with
      | .ok (.declaration title), h =>
          obtain ⟨hfault, hstatements⟩ := ih h
          rw [List.filterMap_cons_none rfl]
          refine ⟨fun e he => ?_, hstatements⟩
          rcases List.mem_cons.mp he with hc | hrest
          · cases hc
          · exact hfault e hrest
      | .ok (.statement s), h =>
          obtain ⟨hfault, hstatements⟩ := ih h
          refine ⟨fun e he => ?_, by simpa [statement?] using hstatements⟩
          rcases List.mem_cons.mp he with hc | hrest
          · cases hc
          · exact hfault e hrest
      | .error _, h => cases h

/-- A script that cannot be read fails with its first fault. -/
theorem collect_eq_error {script : Script} {lines : List (Except ScriptError Line)}
    {e : ScriptError} (h : script.collect lines = .error e) :
    ∃ before after, lines = before ++ .error e :: after ∧ Faultless before := by
  induction lines generalizing script with
  | nil => cases h
  | cons item rest ih =>
      match item, h with
      | .ok line, h =>
          obtain ⟨before, after, rfl, hfault⟩ : ∃ before after,
              rest = before ++ .error e :: after ∧ Faultless before := by
            cases line with
            | declaration title => exact ih h
            | statement s => exact ih h
          refine ⟨.ok line :: before, after, rfl, fun e' he' => ?_⟩
          rcases List.mem_cons.mp he' with hc | hrest
          · cases hc
          · exact hfault e' hrest
      | .error e', h =>
          cases h
          exact ⟨[], rest, rfl, fun e he => absurd he (List.not_mem_nil)⟩

end Script

end ChartScript
