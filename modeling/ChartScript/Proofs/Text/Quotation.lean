/-
Texts with quoted runs in them.

Every scanner of a script line acts on a few marks, such as commas, parentheses or slashes, and
only on those that stand outside quoted runs.  A text in which each of these marks is quoted is
hidden from the scanner, which then passes over it.  A text between two quote characters hides
every mark that is no quote character itself, and leaves the scan where it started.
-/
import ChartScript.Proofs.Text.Rows
import ChartScript.Text.Quotation

namespace ChartScript.Text

/-- A character that a scan of quoted runs takes no notice of. -/
def IsUnquoting (c : Char) : Prop :=
  isQuote c = false ∧ c ≠ '\\'

instance (c : Char) : Decidable (IsUnquoting c) :=
  inferInstanceAs (Decidable (_ ∧ _))

theorem isUnquoting_of_class {p : Char → Bool} {c : Char} (h : p c = true)
    (hdouble : p '\x22' = false) (hsingle : p '\x27' = false) (hslash : p '\\' = false) :
    IsUnquoting c :=
  ⟨Bool.or_eq_false_iff.mpr ⟨beq_eq_false_iff_ne.mpr (ne_of_class h hdouble),
    beq_eq_false_iff_ne.mpr (ne_of_class h hsingle)⟩, ne_of_class h hslash⟩

theorem isUnquoting_of_isBlank {c : Char} (h : isBlank c = true) : IsUnquoting c :=
  isUnquoting_of_class h (by decide) (by decide) (by decide)

theorem isQuote_of_isBlank {c : Char} (h : isBlank c = true) : isQuote c = false :=
  (isUnquoting_of_isBlank h).1

theorem isBlank_of_isQuote {c : Char} (h : isQuote c = true) : isBlank c = false := by
  rw [Bool.eq_false_iff]
  intro hblank
  rw [isQuote_of_isBlank hblank] at h
  cases h

namespace Quotation

variable {q : Quotation} {cs : List Char}

theorem opener_after (h : ∀ c ∈ cs, isQuote c = false) : (q.after cs).opener = q.opener := by
  induction cs generalizing q with
  | nil => rfl
  | cons c cs ih =>
      obtain ⟨hc, hcs⟩ := List.forall_mem_cons.mp h
      rw [after_cons, ih hcs, opener_next_of_not_quote hc]

/-- Without a quote character no run is opened or closed. -/
theorem isOutside_after (h : ∀ c ∈ cs, isQuote c = false) :
    (q.after cs).isOutside = q.isOutside := by
  rw [isOutside, opener_after h, isOutside]

theorem escaping_after (h : cs ≠ []) : (q.after cs).escaping = (cs.getLast? == some '\\') := by
  obtain ⟨front, last, rfl⟩ := (List.eq_nil_or_concat' cs).resolve_left h
  rw [after_append, List.getLast?_concat]
  rfl

/-- A text without quote characters, and without a backslash at its end, leaves a scan where it
was. -/
theorem after_eq_self (hq : q.escaping = false) (hcs : ∀ c ∈ cs, isQuote c = false)
    (hlast : cs.getLast? ≠ some '\\') : q.after cs = q := by
  have hopener : (q.after cs).opener = q.opener := opener_after hcs
  have hescaping : (q.after cs).escaping = q.escaping := by
    by_cases hne : cs = []
    · rw [hne, after_nil]
    · rw [escaping_after hne, hq]
      exact beq_eq_false_iff_ne.mpr hlast
  calc q.after cs = ⟨(q.after cs).opener, (q.after cs).escaping⟩ := rfl
    _ = q := by rw [hopener, hescaping]

theorem after_of_isUnquoting (hq : q.escaping = false) (h : ∀ c ∈ cs, IsUnquoting c) :
    q.after cs = q :=
  after_eq_self hq (fun c hc => (h c hc).1) fun hlast => (h _ (List.mem_of_getLast? hlast)).2 rfl

end Quotation

/-! ### Hidden marks -/

/-- Reading on from `q`, each of some marks stands in a quoted run wherever it occurs. -/
def Hidden (marks : List Char) (q : Quotation) : List Char → Prop
  | [] => True
  | c :: cs => (q.isOutside = true → c ∉ marks) ∧ Hidden marks (q.next c) cs

namespace Hidden

variable {marks : List Char} {q : Quotation} {cs : List Char}

theorem append_iff {ds : List Char} :
    Hidden marks q (cs ++ ds) ↔ Hidden marks q cs ∧ Hidden marks (q.after cs) ds := by
  induction cs generalizing q with
  | nil => exact (iff_of_eq (true_and _)).symm
  | cons c cs ih => rw [List.cons_append, Hidden, Hidden, ih, Quotation.after_cons, and_assoc]

theorem mono {fewer : List Char} (h : Hidden marks q cs) (hsub : fewer ⊆ marks) :
    Hidden fewer q cs := by
  induction cs generalizing q with
  | nil => trivial
  | cons c cs ih => exact ⟨fun houtside hc => h.1 houtside (hsub hc), ih h.2⟩

/-- A text without marks hides them. -/
theorem of_not_mem (h : ∀ c ∈ cs, c ∉ marks) : Hidden marks q cs := by
  induction cs generalizing q with
  | nil => trivial
  | cons c cs ih =>
      obtain ⟨hc, hcs⟩ := List.forall_mem_cons.mp h
      exact ⟨fun _ => hc, ih hcs⟩

/-- Inside a quoted run a text without quote characters hides everything. -/
theorem of_inside (hq : q.isOutside = false) (h : ∀ c ∈ cs, isQuote c = false) :
    Hidden marks q cs := by
  induction cs generalizing q with
  | nil => trivial
  | cons c cs ih =>
      obtain ⟨hc, hcs⟩ := List.forall_mem_cons.mp h
      refine ⟨fun houtside => absurd (houtside.symm.trans hq) (by decide), ih ?_ hcs⟩
      rw [Quotation.isOutside, Quotation.opener_next_of_not_quote hc]
      exact hq

end Hidden

/-- Blanks hide all marks that are no blanks. -/
theorem hidden_of_blanks {marks blanks : List Char} {q : Quotation}
    (h : ∀ c ∈ blanks, isBlank c = true) (hmarks : ∀ c ∈ marks, isBlank c = false) :
    Hidden marks q blanks :=
  .of_not_mem fun c hc hmark => ne_of_class (h c hc) (hmarks c hmark) rfl

/-- Hidden parentheses do not count. -/
theorem Nesting.after_of_hidden {n : Nesting} {cs : List Char}
    (h : Hidden ['(', ')'] n.quotation cs) : n.after cs = ⟨n.quotation.after cs, n.depth⟩ := by
  induction cs generalizing n with
  | nil => rfl
  | cons c cs ih =>
      have hdepth : (n.next c).depth = n.depth := by
        by_cases houtside : n.quotation.isOutside = true
        · have hmark := h.1 houtside
          simp only [List.mem_cons, List.not_mem_nil, or_false, not_or] at hmark
          simp [Nesting.next, houtside, hmark]
        · simp [Nesting.next, houtside]
      rw [Nesting.after_cons, ih h.2, hdepth, Quotation.after_cons]
      rfl

namespace Nesting

variable {n : Nesting} {blanks : List Char}

theorem after_blanks_eq (h : ∀ c ∈ blanks, isBlank c = true) :
    n.after blanks = ⟨n.quotation.after blanks, n.depth⟩ :=
  after_of_hidden (hidden_of_blanks h (forall_mem_of_all (by decide)))

/-- Blanks leave a scan where it was, unless a backslash is in front of them. -/
theorem after_blanks (h : ∀ c ∈ blanks, isBlank c = true) (hn : n.quotation.escaping = false) :
    n.after blanks = n := by
  rw [after_blanks_eq h,
    Quotation.after_of_isUnquoting hn fun c hc => isUnquoting_of_isBlank (h c hc)]

theorem isOutside_after_blanks (h : ∀ c ∈ blanks, isBlank c = true) :
    (n.after blanks).quotation.isOutside = n.quotation.isOutside := by
  rw [after_blanks_eq h, Quotation.isOutside_after fun c hc => isQuote_of_isBlank (h c hc)]

theorem depth_after_blanks (h : ∀ c ∈ blanks, isBlank c = true) :
    (n.after blanks).depth = n.depth := by
  rw [after_blanks_eq h]

theorem isTop_after_blanks (h : ∀ c ∈ blanks, isBlank c = true) :
    (n.after blanks).isTop = n.isTop := by
  rw [isTop, isOutside_after_blanks h, depth_after_blanks h, isTop]

end Nesting

/-! ### Sealed texts -/

/-- A text that hides some marks and leaves a scan where it started. -/
structure IsSealed (marks cs : List Char) : Prop where
  hidden : Hidden marks .start cs
  closed : Quotation.start.after cs = .start

namespace IsSealed

variable {marks cs ds : List Char}

theorem append (hcs : IsSealed marks cs) (hds : IsSealed marks ds) : IsSealed marks (cs ++ ds) :=
  ⟨Hidden.append_iff.mpr ⟨hcs.hidden, by rw [hcs.closed]; exact hds.hidden⟩,
    by rw [Quotation.after_append, hcs.closed, hds.closed]⟩

theorem mono {fewer : List Char} (h : IsSealed marks cs) (hsub : fewer ⊆ marks) :
    IsSealed fewer cs :=
  ⟨h.hidden.mono hsub, h.closed⟩

theorem of_isUnquoting (h : ∀ c ∈ cs, IsUnquoting c ∧ c ∉ marks) : IsSealed marks cs :=
  ⟨.of_not_mem fun c hc => (h c hc).2, Quotation.after_of_isUnquoting rfl fun c hc => (h c hc).1⟩

/-- Sealed texts with a sealed separator between them. -/
theorem intercalate {separator : List Char} (hseparator : IsSealed marks separator)
    {texts : List (List Char)} (h : ∀ text ∈ texts, IsSealed marks text) :
    IsSealed marks (separator.intercalate texts) := by
  induction texts with
  | nil => exact ⟨trivial, rfl⟩
  | cons text rest ih =>
      obtain ⟨htext, hrest⟩ := List.forall_mem_cons.mp h
      cases rest with
      | nil => exact List.intercalate_singleton ▸ htext
      | cons next more =>
          rw [List.intercalate_cons_cons]
          exact (htext.append hseparator).append (ih hrest)

end IsSealed

/-! ### Quoted texts -/

/-- A text that can stand between quote characters as it is. -/
structure IsQuotable (cs : List Char) : Prop where
  quoteless : ∀ c ∈ cs, isQuote c = false
  /-- A backslash would keep the quote character behind it from closing the run. -/
  closes : cs.getLast? ≠ some '\\'

/-- A text between two quote characters. -/
def quoted (quote : Char) (cs : List Char) : List Char :=
  quote :: (cs ++ [quote])

theorem isTrimmed_quoted {quote : Char} (h : isQuote quote = true) (cs : List Char) :
    IsTrimmed (quoted quote cs) := by
  refine ⟨fun c hc => ?_, fun c hc => ?_⟩
  · cases hc
    exact isBlank_of_isQuote h
  · rw [quoted, ← List.cons_append, List.getLast?_concat] at hc
    cases hc
    exact isBlank_of_isQuote h

theorem Quotation.start_next_of_isQuote {quote : Char} (h : isQuote quote = true) :
    Quotation.start.next quote = ⟨some quote, false⟩ := by
  have hslash : (quote == '\\') = false :=
    beq_eq_false_iff_ne.mpr (ne_of_class h (by decide))
  simp [Quotation.next, Quotation.start, h, hslash]

theorem Quotation.close_of_isQuote {quote : Char} (h : isQuote quote = true) :
    (⟨some quote, false⟩ : Quotation).next quote = .start := by
  have hslash : (quote == '\\') = false :=
    beq_eq_false_iff_ne.mpr (ne_of_class h (by decide))
  simp [Quotation.next, Quotation.start, h, hslash]

/-- **A quoted text hides all marks in it**, whatever they are, if they are no quote
characters. -/
theorem IsQuotable.isSealed {marks cs : List Char} {quote : Char} (h : IsQuotable cs)
    (hquote : isQuote quote = true) (hmarks : ∀ c ∈ marks, isQuote c = false) :
    IsSealed marks (quoted quote cs) := by
  have hmark : quote ∉ marks := fun hmem => by
    rw [hmarks quote hmem] at hquote
    cases hquote
  have hafter : (⟨some quote, false⟩ : Quotation).after cs = ⟨some quote, false⟩ :=
    Quotation.after_eq_self rfl h.quoteless h.closes
  refine ⟨⟨fun _ => hmark, ?_⟩, ?_⟩
  · rw [Quotation.start_next_of_isQuote hquote, Hidden.append_iff, hafter]
    exact ⟨.of_inside rfl h.quoteless, fun _ => hmark, trivial⟩
  · rw [quoted, Quotation.after_cons, Quotation.start_next_of_isQuote hquote,
      Quotation.after_append, hafter, Quotation.after_cons, Quotation.close_of_isQuote hquote,
      Quotation.after_nil]

end ChartScript.Text
