/-
Trailing comments.

A comment starts at the first `//` that stands outside quoted runs.  What is in front of it is the
code of a text: the prefixes of the code are the prefixes of the text that reach into no such
`//`.  Everything else about comments follows from this and from what a quoted run hides.
-/
import ChartScript.Proofs.Text.Quotation

namespace ChartScript.Text

/-! ### Where comments start -/

/-- Reading on from `q`, two slashes outside quoted runs stand behind `before`. -/
def SlashesBehind (q : Quotation) (cs before : List Char) : Prop :=
  ∃ after, cs = before ++ '/' :: '/' :: after ∧ (q.after before).isOutside = true

/-- Reading on from `q`, two slashes stand outside quoted runs. -/
def HasSlashes (q : Quotation) (cs : List Char) : Prop :=
  ∃ before, SlashesBehind q cs before

/-- A beginning of a text reaches into no two slashes outside quoted runs: not even the first of
the two is in it. -/
def EndsBeforeSlashes (q : Quotation) (cs front : List Char) : Prop :=
  ∀ before, SlashesBehind q cs before → front.length ≤ before.length

variable {q : Quotation} {cs ds : List Char}

theorem slashesBehind_nil_iff {c : Char} :
    SlashesBehind q (c :: cs) [] ↔ c = '/' ∧ q.isOutside = true ∧ cs.head? = some '/' := by
  constructor
  · rintro ⟨after, hcs, houtside⟩
    cases hcs
    exact ⟨rfl, houtside, rfl⟩
  · rintro ⟨rfl, houtside, hnext⟩
    obtain ⟨after, rfl⟩ := List.head?_eq_some_iff.mp hnext
    exact ⟨after, rfl, houtside⟩

theorem slashesBehind_cons_iff {c d : Char} {before : List Char} :
    SlashesBehind q (c :: cs) (d :: before) ↔ c = d ∧ SlashesBehind (q.next c) cs before := by
  constructor
  · rintro ⟨after, hcs, houtside⟩
    obtain ⟨rfl, rfl⟩ := List.cons.inj hcs
    exact ⟨rfl, after, rfl, houtside⟩
  · rintro ⟨rfl, after, rfl, houtside⟩
    exact ⟨after, rfl, houtside⟩

theorem SlashesBehind.append {before : List Char} (h : SlashesBehind q cs before) :
    SlashesBehind q (cs ++ ds) before := by
  obtain ⟨after, rfl, houtside⟩ := h
  exact ⟨after ++ ds, by simp, houtside⟩

theorem codeFrom_cons_of_slashes {c : Char} (h : SlashesBehind q (c :: cs) []) :
    codeFrom q (c :: cs) = [] := by
  obtain ⟨hc, houtside, hnext⟩ := slashesBehind_nil_iff.mp h
  rw [codeFrom, if_pos]
  simp [hc, houtside, hnext]

theorem codeFrom_cons_of_not_slashes {c : Char} (h : ¬SlashesBehind q (c :: cs) []) :
    codeFrom q (c :: cs) = c :: codeFrom (q.next c) cs := by
  rw [codeFrom, if_neg]
  intro hmark
  simp only [Bool.and_eq_true, beq_iff_eq] at hmark
  exact h (slashesBehind_nil_iff.mpr ⟨hmark.1.1, hmark.1.2, hmark.2⟩)

/-- **Code ends in front of the first two slashes outside quoted runs.**  What begins the code is
what begins the text and reaches into no such slashes. -/
theorem isPrefix_codeFrom_iff {front : List Char} :
    front <+: codeFrom q cs ↔ front <+: cs ∧ EndsBeforeSlashes q cs front := by
  induction cs generalizing q front with
  | nil =>
      refine (and_iff_left fun before => ?_).symm
      rintro ⟨after, hnil, -⟩
      cases before <;> cases hnil
  | cons c cs ih =>
      by_cases hslashes : SlashesBehind q (c :: cs) []
      · rw [codeFrom_cons_of_slashes hslashes, List.prefix_nil]
        constructor
        · rintro rfl
          exact ⟨List.nil_prefix, fun _ _ => Nat.zero_le _⟩
        · rintro ⟨-, hbefore⟩
          exact List.length_eq_zero_iff.mp (Nat.le_zero.mp (hbefore [] hslashes))
      · rw [codeFrom_cons_of_not_slashes hslashes]
        cases front with
        | nil => exact iff_of_true List.nil_prefix ⟨List.nil_prefix, fun _ _ => Nat.zero_le _⟩
        | cons d front =>
            rw [List.cons_prefix_cons, List.cons_prefix_cons, ih, and_assoc]
            refine and_congr_right fun hd => and_congr_right fun _ => ?_
            constructor
            · intro hinner before hbefore
              cases before with
              | nil => exact absurd hbefore hslashes
              | cons b before =>
                  exact Nat.succ_le_succ (hinner before (slashesBehind_cons_iff.mp hbefore).2)
            · intro hwhole before hbefore
              exact Nat.le_of_succ_le_succ
                (hwhole (c :: before) (slashesBehind_cons_iff.mpr ⟨rfl, hbefore⟩))

theorem codeFrom_isPrefix (q : Quotation) (cs : List Char) : codeFrom q cs <+: cs :=
  (isPrefix_codeFrom_iff.mp (List.prefix_refl _)).1

theorem endsBeforeSlashes_codeFrom (q : Quotation) (cs : List Char) :
    EndsBeforeSlashes q cs (codeFrom q cs) :=
  (isPrefix_codeFrom_iff.mp (List.prefix_refl _)).2

/-- The longest beginning of a text that has some property. -/
structure IsLongestPrefix (property : List Char → Prop) (cs front : List Char) : Prop where
  begins : front <+: cs
  holds : property front
  longest : ∀ other, other <+: cs → property other → other.length ≤ front.length

theorem isLongestPrefix_codeFrom (q : Quotation) (cs : List Char) :
    IsLongestPrefix (EndsBeforeSlashes q cs) cs (codeFrom q cs) where
  begins := codeFrom_isPrefix q cs
  holds := endsBeforeSlashes_codeFrom q cs
  longest _ hother hends := (isPrefix_codeFrom_iff.mpr ⟨hother, hends⟩).length_le

/-- There is no comment in code. -/
theorem not_hasSlashes_codeFrom (q : Quotation) (cs : List Char) :
    ¬HasSlashes q (codeFrom q cs) := by
  rintro ⟨before, hbefore⟩
  obtain ⟨comment, hcomment⟩ := codeFrom_isPrefix q cs
  have hwhole : SlashesBehind q cs before := by
    rw [← hcomment]
    exact hbefore.append
  have hle := endsBeforeSlashes_codeFrom q cs before hwhole
  obtain ⟨after, happend, -⟩ := hbefore
  rw [happend, List.length_append, List.length_cons] at hle
  omega

theorem codeFrom_eq_self (h : ¬HasSlashes q cs) : codeFrom q cs = cs := by
  have hprefix : cs <+: codeFrom q cs :=
    isPrefix_codeFrom_iff.mpr ⟨List.prefix_refl _, fun before hbefore => absurd ⟨before, hbefore⟩ h⟩
  exact (codeFrom_isPrefix q cs).eq_of_length_le hprefix.length_le

/-- Without two slashes in a row there is no comment to cut off. -/
theorem codeFrom_of_not_slashes (h : ¬['/', '/'] <:+: cs) (q : Quotation) : codeFrom q cs = cs := by
  refine codeFrom_eq_self ?_
  rintro ⟨before, after, rfl, -⟩
  exact h ⟨before, after, by simp⟩

/-- No comment mark comes about behind a text without a slash. -/
theorem not_slashes_append {front cs : List Char} (hfront : '/' ∉ front)
    (h : ¬['/', '/'] <:+: cs) : ¬['/', '/'] <:+: front ++ cs := by
  intro hinfix
  induction front with
  | nil => exact h hinfix
  | cons c front ih =>
      rcases List.infix_cons_iff.mp hinfix with hprefix | hinfix
      · exact hfront (List.mem_cons.mpr (Or.inl (List.cons_prefix_cons.mp hprefix).1))
      · exact ih (fun hmem => hfront (List.mem_cons_of_mem c hmem)) hinfix

/-! ### Code of longer texts -/

/-- Behind a text that hides its slashes the code goes on. -/
theorem codeFrom_append_of_hidden (h : Hidden ['/'] q cs) (ds : List Char) :
    codeFrom q (cs ++ ds) = cs ++ codeFrom (q.after cs) ds := by
  induction cs generalizing q with
  | nil => rfl
  | cons c cs ih =>
      rw [List.cons_append, codeFrom_cons_of_not_slashes, ih h.2]
      · rfl
      · intro hslashes
        obtain ⟨hc, houtside, -⟩ := slashesBehind_nil_iff.mp hslashes
        exact h.1 houtside (List.mem_singleton.mpr hc)

/-- **A comment behind a text leaves its code as it is**, unless the text is quoted at its end or
has a slash there that the comment mark would go on with. -/
theorem codeFrom_append_comment (houtside : (q.after cs).isOutside = true)
    (hlast : cs.getLast? ≠ some '/') (comment : List Char) :
    codeFrom q (cs ++ '/' :: '/' :: comment) = codeFrom q cs := by
  induction cs generalizing q with
  | nil => exact codeFrom_cons_of_slashes (slashesBehind_nil_iff.mpr ⟨rfl, houtside, rfl⟩)
  | cons c cs ih =>
      have hiff : SlashesBehind q (c :: (cs ++ '/' :: '/' :: comment)) [] ↔
          SlashesBehind q (c :: cs) [] := by
        rw [slashesBehind_nil_iff, slashesBehind_nil_iff]
        cases cs with
        | nil => exact iff_of_false (fun h => hlast (by rw [h.1]; rfl)) (fun h => by cases h.2.2)
        | cons d cs => rfl
      have hrest : cs.getLast? ≠ some '/' := by
        cases cs with
        | nil => exact fun h => by cases h
        | cons d cs => rwa [List.getLast?_cons_cons] at hlast
      by_cases hslashes : SlashesBehind q (c :: cs) []
      · rw [codeFrom_cons_of_slashes hslashes, List.cons_append,
          codeFrom_cons_of_slashes (hiff.mpr hslashes)]
      · rw [codeFrom_cons_of_not_slashes hslashes, List.cons_append,
          codeFrom_cons_of_not_slashes fun h => hslashes (hiff.mp h), ih houtside hrest]

/-- Blanks behind a text are blanks behind its code, if they are in its code at all. -/
theorem exists_codeFrom_append_blanks {blanks : List Char}
    (h : ∀ c ∈ blanks, isBlank c = true) (q : Quotation) (cs : List Char) :
    ∃ more, (∀ c ∈ more, isBlank c = true) ∧
      codeFrom q (cs ++ blanks) = codeFrom q cs ++ more := by
  induction cs generalizing q with
  | nil =>
      refine ⟨blanks, h, ?_⟩
      have hhidden : Hidden ['/'] q blanks :=
        hidden_of_blanks h (List.forall_mem_singleton.mpr rfl)
      simpa [codeFrom] using codeFrom_append_of_hidden hhidden []
  | cons c cs ih =>
      have hiff : SlashesBehind q (c :: (cs ++ blanks)) [] ↔ SlashesBehind q (c :: cs) [] := by
        rw [slashesBehind_nil_iff, slashesBehind_nil_iff]
        cases cs with
        | nil =>
            refine and_congr_right fun _ => and_congr_right fun _ => iff_of_false ?_ (by simp)
            intro hhead
            exact ne_of_class (h _ (List.mem_of_head? hhead)) (by decide) rfl
        | cons d cs => rfl
      by_cases hslashes : SlashesBehind q (c :: cs) []
      · refine ⟨[], by simp, ?_⟩
        rw [List.cons_append, codeFrom_cons_of_slashes (hiff.mpr hslashes),
          codeFrom_cons_of_slashes hslashes, List.append_nil]
      · obtain ⟨more, hmore, hcode⟩ := ih (q.next c)
        refine ⟨more, hmore, ?_⟩
        rw [List.cons_append, codeFrom_cons_of_not_slashes fun hc => hslashes (hiff.mp hc), hcode,
          codeFrom_cons_of_not_slashes hslashes, List.cons_append]

end ChartScript.Text
