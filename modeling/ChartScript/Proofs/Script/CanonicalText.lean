/-
The canonical text of an expression is read as the expression.

The canonical text has parentheses around every operation on two operands, and none around
a sign.  A sign binds tighter than any operation, so these are enough: the words of the text
derive the expression they were written for, by induction on the expression.  In between,
no two words run together, since a blank or a symbol stands behind every number and name.

What the text of a number is read as is left to the numbers themselves.  That it is read at
all is not: a number in an expression has no sign, so its text is digits and perhaps a point.
-/
import ChartScript.Proofs.Decimal.PlainText
import ChartScript.Proofs.Decimal.Sign
import ChartScript.Proofs.Run.Frame
import ChartScript.Proofs.Script.Assignment

namespace ChartScript

open Text

/-! ### Words in front of separators -/

/-- There is no blank in a word. -/
theorem IsWord.isBlank_of_mem {word : List Char} (h : IsWord word) {c : Char} (hc : c ∈ word) :
    isBlank c = false := by
  cases h with
  | operator operation =>
      rw [List.mem_singleton.mp hc]
      cases operation <;> rfl
  | openParen => rw [List.mem_singleton.mp hc]; rfl
  | closeParen => rw [List.mem_singleton.mp hc]; rfl
  | identifier h => exact (isPlain_of_mem h c hc).blank
  | number h =>
      rcases List.mem_append.mp hc with hmantissa | hexponent
      · rcases Bool.or_eq_true_iff.mp (h.numeral c hmantissa) with hdigit | hpoint
        · exact isBlank_of_isDigit hdigit
        · rw [beq_iff_eq.mp hpoint]
          rfl
      · exact (h.exponent.isNumberChar_of_mem hexponent).isBlank

/-- There is no separator in a word. -/
theorem IsWord.not_mem_of_isSeparator {word : List Char} (h : IsWord word) {c : Char}
    (hc : Token.isSeparator c = true) : c ∉ word := by
  intro hmem
  have hblank := h.isBlank_of_mem hmem
  rcases Token.eq_of_isSeparator hc with rfl | rfl | rfl | rfl <;> cases hblank

/-- A longest word is still the longest if a separator comes behind it. -/
theorem IsLongest.append_separator {word cs : List Char} (h : IsLongest word (word ++ cs))
    {c : Char} (hc : Token.isSeparator c = true) (ds : List Char) :
    IsLongest word (word ++ (cs ++ c :: ds)) := by
  refine ⟨h.isWord, ⟨_, rfl⟩, ?_⟩
  intro other hother hfront
  rw [← List.append_assoc] at hfront
  have hcommon : word ++ cs <+: word ++ cs ++ c :: ds := ⟨c :: ds, rfl⟩
  by_cases hlength : other.length ≤ (word ++ cs).length
  · exact h.longest other hother (List.prefix_of_prefix_length_le hfront hcommon hlength)
  · exfalso
    have hpast : word ++ cs ++ [c] <+: other := by
      refine List.prefix_of_prefix_length_le ⟨ds, by simp⟩ hfront ?_
      rw [List.length_append, List.length_singleton]
      omega
    exact hother.not_mem_of_isSeparator hc (hpast.subset (by simp))

/-- A text in front of a separator is cut as it is alone. -/
theorem Munches.append_separator {cs ds : List Char} {ls ms : List Lexeme} {c : Char}
    (h : Munches cs ls) (hc : Token.isSeparator c = true) (hmore : Munches ds ms) :
    Munches (cs ++ c :: ds) (ls ++ ms) := by
  induction h with
  | nil => exact .separator hc hmore
  | separator hsep _ ih => exact .separator hsep ih
  | word longest spelling _ ih =>
      rw [List.append_assoc]
      exact .word (longest.append_separator hc ds) spelling ih

/-- A word alone is cut into itself. -/
theorem Spells.munches {word : List Char} {l : Lexeme} (h : Spells word l) : Munches word [l] := by
  have hlongest : IsLongest word (word ++ []) := by
    rw [List.append_nil]
    exact ⟨h.isWord, List.prefix_rfl, fun other _ hfront => hfront.length_le⟩
  have hmunches := Munches.word hlongest h .nil
  rwa [List.append_nil] at hmunches

/-- A symbol in front of a text is a word by itself. -/
theorem Munches.symbol {c : Char} {l : Lexeme} {cs : List Char} {ls : List Lexeme}
    (hsymbol : IsSymbol c) (hspells : Spells [c] l) (h : Munches cs ls) :
    Munches (c :: cs) (l :: ls) :=
  .word (isLongest_symbol hsymbol cs) hspells h

namespace Arithmetic

/-! ### Numbers and names in an expression -/

/-- The numbers and names in an expression, from left to right. -/
def atoms : Arithmetic → List Lexeme
  | .number value => [.number value]
  | .symbol name => [.identifier name]
  | .neg operand => operand.atoms
  | .binary _ left right => left.atoms ++ right.atoms

/-- What an expression is derived from has all its numbers and names in it. -/
theorem Derives.atoms_subset {category : Category} {ls : List Lexeme} {e : Arithmetic}
    (h : Derives category ls e) : e.atoms ⊆ ls := by
  induction h with
  | number value => exact List.Subset.refl _
  | symbol name => exact List.Subset.refl _
  | enclosed _ ih =>
      intro l hl
      exact List.mem_append_left _ (List.mem_cons_of_mem _ (ih hl))
  | unsigned _ ih => exact ih
  | plus _ ih => exact fun l hl => List.mem_cons_of_mem _ (ih hl)
  | minus _ ih => exact fun l hl => List.mem_cons_of_mem _ (ih hl)
  | factor _ ih => exact ih
  | multiplied _ _ _ left right =>
      refine List.append_subset.mpr ⟨List.subset_append_of_subset_left _ left, ?_⟩
      exact List.subset_append_of_subset_right _ (List.subset_cons_of_subset _ right)
  | summand _ ih => exact ih
  | added _ _ _ left right =>
      refine List.append_subset.mpr ⟨List.subset_append_of_subset_left _ left, ?_⟩
      exact List.subset_append_of_subset_right _ (List.subset_cons_of_subset _ right)

/-- Every lexeme that a text is cut into is spelled in it. -/
theorem exists_spells_of_munches {cs : List Char} {ls : List Lexeme} (h : Munches cs ls) :
    ∀ l ∈ ls, ∃ word, Spells word l := by
  induction h with
  | nil => exact fun l hl => absurd hl List.not_mem_nil
  | separator _ _ ih => exact ih
  | word _ spelling _ ih => exact List.forall_mem_cons.mpr ⟨⟨_, spelling⟩, ih⟩

/-- A name that is spelled is an identifier. -/
theorem isIdentifier_of_spells {word : List Char} {name : String}
    (h : Spells word (.identifier name)) : isIdentifier name.toList = true := by
  cases h with
  | identifier h => rwa [String.toList_ofList]

/-- A number that is spelled has no sign. -/
theorem toBits_lt_of_spells {word : List Char} {x : Float} (h : Spells word (.number x)) :
    x.toBits.toNat < 2 ^ 63 := by
  cases h with
  | number hnumber _ reads =>
      rw [Decimal.readFloat?_of_isNumber hnumber] at reads
      obtain ⟨d, -, rfl⟩ := Option.map_eq_some_iff.mp reads
      exact d.toBits_toFloat_lt

/-! ### The canonical text -/

/-- The lexemes of the canonical text. -/
def lexemes : Arithmetic → List Lexeme
  | .number value => [.number value]
  | .symbol name => [.identifier name]
  | .neg operand => .operator .sub :: operand.lexemes
  | .binary operation left right =>
      .openParen :: (left.lexemes ++ .operator operation :: right.lexemes) ++ [.closeParen]

/-- **The lexemes of the canonical text derive the expression**, which needs no parentheses
to stand behind a sign. -/
theorem derives_lexemes (e : Arithmetic) : Derives .signed e.lexemes e := by
  induction e with
  | number value => exact .unsigned (.number value)
  | symbol name => exact .unsigned (.symbol name)
  | neg operand ih => exact .minus ih
  | binary operation left right ihl ihr =>
      refine .unsigned (.enclosed ?_)
      cases operation with
      | add => exact .added (.summand (.factor ihl)) (Or.inl rfl) (.factor ihr)
      | sub => exact .added (.summand (.factor ihl)) (Or.inr rfl) (.factor ihr)
      | mul => exact .summand (.multiplied (.factor ihl) (Or.inl rfl) ihr)
      | div => exact .summand (.multiplied (.factor ihl) (Or.inr rfl) ihr)

theorem toList_text_neg (operand : Arithmetic) :
    (neg operand).text.toList = '-' :: operand.text.toList := by
  rw [text, String.toList_append]
  rfl

theorem toList_text_binary (operation : Operation) (left right : Arithmetic) :
    (binary operation left right).text.toList =
      '(' :: (left.text.toList ++
        ' ' :: operation.character :: ' ' :: (right.text.toList ++ [')'])) := by
  simp [text]

/-- **The canonical text is cut into its lexemes** if its numbers and names are. -/
theorem munches_text {e : Arithmetic}
    (hnumbers : ∀ x, .number x ∈ e.atoms → Spells (plainText x).toList (.number x))
    (hnames : ∀ name, .identifier name ∈ e.atoms → isIdentifier name.toList = true) :
    Munches e.text.toList e.lexemes := by
  induction e with
  | number value => exact (hnumbers value (List.mem_singleton_self _)).munches
  | symbol name =>
      have hspells := Spells.identifier (hnames name (List.mem_singleton_self _))
      rw [String.ofList_toList] at hspells
      exact hspells.munches
  | neg operand ih =>
      rw [toList_text_neg]
      exact (ih hnumbers hnames).symbol (Or.inr (Or.inr ⟨.sub, rfl⟩)) (.operator .sub)
  | binary operation left right ihl ihr =>
      have hleft := ihl (fun x hx => hnumbers x (List.mem_append_left _ hx))
        fun name hname => hnames name (List.mem_append_left _ hname)
      have hright := ihr (fun x hx => hnumbers x (List.mem_append_right _ hx))
        fun name hname => hnames name (List.mem_append_right _ hname)
      have hclose : Munches [')'] [.closeParen] := Spells.closeParen.munches
      have hoperand := Munches.separator (c := ' ') rfl
        (hright.append isBreak_closeParen hclose)
      have hoperation := hoperand.symbol (Or.inr (Or.inr ⟨operation, rfl⟩)) (.operator operation)
      have hinner := hleft.append_separator (c := ' ') rfl hoperation
      have htext := hinner.symbol (Or.inl rfl) .openParen
      rw [toList_text_binary]
      simpa [lexemes] using htext

/-- A number that is spelled and finite is spelled by its canonical text, if it is read from
that text. -/
theorem spells_plainText {word : List Char} {x : Float} (h : Spells word (.number x))
    (hfinite : x.isFinite = true) (hreads : Decimal.readFloat? (plainText x).toList = some x) :
    Spells (plainText x).toList (.number x) := by
  obtain ⟨whole, fraction, htext, hne, hwhole, hfraction⟩ :=
    plainText_digits hfinite (toBits_lt_of_spells h)
  obtain ⟨hnumber, hreadable⟩ := isNumber_of_digits hne hwhole hfraction
  have htext' : (plainText x).toList = whole ++ Numeral.fractionText fraction ++ [] := by
    rw [htext, List.append_nil]
  rw [htext'] at hreads ⊢
  exact .number hnumber hreadable hreads

/-- The words of an expression that has been read spell its numbers and names, and the
canonical texts of its numbers do so as well, if the numbers are read from them. -/
theorem spells_of_parse {cs : List Char} {e : Arithmetic} (h : parse cs = .ok e)
    (hfinite : ∀ x, .number x ∈ e.atoms → x.isFinite = true)
    (hreads : ∀ x, .number x ∈ e.atoms → Decimal.readFloat? (plainText x).toList = some x) :
    (∀ x, .number x ∈ e.atoms → Spells (plainText x).toList (.number x)) ∧
      ∀ name, .identifier name ∈ e.atoms → isIdentifier name.toList = true := by
  obtain ⟨tokens, hall, hderives⟩ := (parse_eq_ok_iff cs e).mp h
  have hspelled : ∀ l ∈ e.atoms, ∃ word, Spells word l := fun l hl =>
    exists_spells_of_munches (Token.munches_of_allFrom hall) l (hderives.atoms_subset hl)
  constructor
  · intro x hx
    obtain ⟨word, hword⟩ := hspelled _ hx
    exact spells_plainText hword (hfinite x hx) (hreads x hx)
  · intro name hname
    obtain ⟨word, hword⟩ := hspelled _ hname
    exact isIdentifier_of_spells hword

section Printed

variable {e : Arithmetic}
  (hnumbers : ∀ x, .number x ∈ e.atoms → Spells (plainText x).toList (.number x))
  (hnames : ∀ name, .identifier name ∈ e.atoms → isIdentifier name.toList = true)
include hnumbers hnames

/-- **A canonical text is read as the expression it was written for.** -/
theorem parse_text : parse e.text.toList = .ok e := by
  obtain ⟨tokens, hall, hlexemes⟩ := (Token.all_eq_ok_iff _ _).mpr (munches_text hnumbers hnames)
  refine (parse_eq_ok_iff _ _).mpr ⟨tokens, hall, ?_⟩
  rw [hlexemes]
  exact .summand (.factor e.derives_lexemes)

/-- The only blanks in a canonical text are those around the operations. -/
theorem eq_space_of_mem_text {c : Char} (hc : c ∈ e.text.toList) (hblank : isBlank c = true) :
    c = ' ' := by
  induction e with
  | number value =>
      have hspells := hnumbers value (List.mem_singleton_self _)
      rw [hspells.isWord.isBlank_of_mem hc] at hblank
      cases hblank
  | symbol name =>
      have hname := hnames name (List.mem_singleton_self _)
      rw [(isPlain_of_mem hname c hc).blank] at hblank
      cases hblank
  | neg operand ih =>
      rw [toList_text_neg] at hc
      rcases List.mem_cons.mp hc with rfl | hc
      · cases hblank
      · exact ih hnumbers hnames hc
  | binary operation left right ihl ihr =>
      rw [toList_text_binary] at hc
      simp only [List.mem_cons, List.mem_append, List.not_mem_nil, or_false] at hc
      rcases hc with rfl | hleft | rfl | rfl | rfl | hright | rfl
      · cases hblank
      · exact ihl (fun x hx => hnumbers x (List.mem_append_left _ hx))
          (fun name hname => hnames name (List.mem_append_left _ hname)) hleft
      · rfl
      · cases operation <;> cases hblank
      · rfl
      · exact ihr (fun x hx => hnumbers x (List.mem_append_right _ hx))
          (fun name hname => hnames name (List.mem_append_right _ hname)) hright
      · cases hblank

theorem isTrimmed_text : IsTrimmed e.text.toList := by
  induction e with
  | number value =>
      have hword := (hnumbers value (List.mem_singleton_self _)).isWord
      exact ⟨fun c hc => hword.isBlank_of_mem (List.mem_of_mem_head? hc),
        fun c hc => hword.isBlank_of_mem (List.mem_of_getLast? hc)⟩
  | symbol name => exact isTrimmed_of_isIdentifier (hnames name (List.mem_singleton_self _))
  | neg operand ih =>
      rw [toList_text_neg]
      refine ⟨fun c hc => ?_, fun c hc => ?_⟩
      · cases hc
        rfl
      · rw [List.getLast?_cons] at hc
        cases hlast : operand.text.toList.getLast? with
        | none =>
            rw [hlast] at hc
            cases hc
            rfl
        | some d =>
            rw [hlast] at hc
            cases hc
            exact (ih hnumbers hnames).back d hlast
  | binary operation left right _ _ =>
      rw [toList_text_binary]
      refine ⟨fun c hc => ?_, fun c hc => ?_⟩
      · cases hc
        rfl
      · simp only [← List.cons_append, ← List.append_assoc, List.getLast?_append,
          List.getLast?_singleton] at hc
        cases hc
        rfl

end Printed

/--
**The canonical text of an expression is read as the expression.**  Take any expression that
a text is read as, in which every number is finite and is read from its own text.  Then the
canonical text of the expression is read as the same expression; and behind any name and an
equals sign it is one row of a script, which assigns exactly that expression to the name.
-/
theorem canonical_text_is_read_back {cs : List Char} {e : Arithmetic} (h : parse cs = .ok e)
    (hfinite : ∀ x, .number x ∈ e.atoms → x.isFinite = true)
    (hreads : ∀ x, .number x ∈ e.atoms → Decimal.readFloat? (plainText x).toList = some x) :
    parse e.text.toList = .ok e ∧
      ∀ target, isIdentifier target = true → ∀ number,
        '\n' ∉ Line.written target e.text.toList ∧
        Line.parse number (Line.written target e.text.toList) =
          .ok (some (.statement ⟨number, .assign (String.ofList target) (.arithmetic e)⟩)) := by
  obtain ⟨hnumbers, hnames⟩ := spells_of_parse h hfinite hreads
  have hparse : parse e.text.toList = .ok e := parse_text hnumbers hnames
  refine ⟨hparse, fun target htarget number => ⟨?_, ?_⟩⟩
  · intro hmem
    rcases List.mem_append.mp hmem with hfront | htext
    · rcases List.mem_append.mp hfront with hname | hsign
      · cases (isPlain_of_mem htarget _ hname).blank
      · exact absurd hsign (by decide)
    · exact absurd (eq_space_of_mem_text hnumbers hnames htext rfl) (by decide)
  · have hform : Line.form (Line.written target e.text.toList) =
        .assignment target e.text.toList :=
      Line.form_written htarget (isTrimmed_text hnumbers hnames) (ne_nil_of_parse hparse)
        (not_slashes_of_parse hparse)
    exact Line.parse_of_assigns ⟨hform, hparse⟩ number

/-- Signs that vanish, numbers with exponents and a name that is a word of its own. -/
theorem canonical_text_of_signed_product :
    let text := "+1.50e1 * -(close + .5)/ta - - 3"
    let canonical := "(((15 * -(close + 0.5)) / ta) - -3)"
    ∃ e, parse text.toList = .ok e ∧ e.text = canonical ∧ parse canonical.toList = .ok e ∧
      Line.parse 7 ("plot = ".toList ++ canonical.toList) =
        .ok (some (.statement ⟨7, .assign "plot" (.arithmetic e)⟩)) := by
  intro text canonical
  let e : Arithmetic := .binary .sub
    (.binary .div
      (.binary .mul (.number 15) (.neg (.binary .add (.symbol "close") (.number 0.5))))
      (.symbol "ta"))
    (.neg (.number 3))
  have hparse : parse text.toList = .ok e := by decide +kernel
  have htext : e.text = canonical := by decide +kernel
  have hfinite : ∀ x, .number x ∈ e.atoms → x.isFinite = true := by
    intro x hx
    simp only [e, atoms, List.mem_append, List.mem_singleton, Lexeme.number.injEq, reduceCtorEq,
      or_false, false_or] at hx
    rcases hx with (rfl | rfl) | rfl <;> decide
  have hreads : ∀ x, .number x ∈ e.atoms → Decimal.readFloat? (plainText x).toList = some x := by
    intro x hx
    simp only [e, atoms, List.mem_append, List.mem_singleton, Lexeme.number.injEq, reduceCtorEq,
      or_false, false_or] at hx
    rcases hx with (rfl | rfl) | rfl <;> decide +kernel
  obtain ⟨hback, hrows⟩ := canonical_text_is_read_back hparse hfinite hreads
  rw [htext] at hback hrows
  exact ⟨e, hparse, htext, hback, (hrows "plot".toList (by decide) 7).2⟩

end Arithmetic

end ChartScript
