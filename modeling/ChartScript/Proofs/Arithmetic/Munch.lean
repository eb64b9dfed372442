/-
Arithmetic text is cut into the longest words.

`IsWord` says what may stand as a word at all and `Spells` which lexeme a word is; a number
text whose mantissa is not readable is a word that spells nothing, so it is not cut shorter
either.  `Munches` is the cut: at the front of what is left stands a separator, or a word
that no longer word at the same place extends.

The scanner decides by one character and then takes what it can.  That this is the longest
word needs care only for numbers, where the exponent is looked at and perhaps left alone.
Two longest words at one place are equal, and that carries the converse: a text that can be
cut at all is cut by the scanner in that way.
-/
import ChartScript.Proofs.Decimal.NumberText

namespace ChartScript

open Text

/-! ### Words -/

/-- A text that may stand as a word of arithmetic. -/
inductive IsWord : List Char → Prop where
  | operator (operation : Operation) : IsWord [operation.character]
  | openParen : IsWord ['(']
  | closeParen : IsWord [')']
  | identifier {cs : List Char} (h : isIdentifier cs = true) : IsWord cs
  | number {mantissa exponent : List Char} (h : IsNumber mantissa exponent) :
      IsWord (mantissa ++ exponent)

/-- The lexeme that a word spells. -/
inductive Spells : List Char → Lexeme → Prop where
  | operator (operation : Operation) : Spells [operation.character] (.operator operation)
  | openParen : Spells ['('] .openParen
  | closeParen : Spells [')'] .closeParen
  | identifier {cs : List Char} (h : isIdentifier cs = true) :
      Spells cs (.identifier (String.ofList cs))
  | number {mantissa exponent : List Char} {value : Float} (h : IsNumber mantissa exponent)
      (readable : IsReadable mantissa)
      (reads : Decimal.readFloat? (mantissa ++ exponent) = some value) :
      Spells (mantissa ++ exponent) (.number value)

/-- The longest word at the front of a text. -/
structure IsLongest (word cs : List Char) : Prop where
  isWord : IsWord word
  front : word <+: cs
  longest : ∀ other, IsWord other → other <+: cs → other.length ≤ word.length

/-- A text is cut into words that spell some lexemes, with separators between them where
one likes. -/
inductive Munches : List Char → List Lexeme → Prop where
  | nil : Munches [] []
  | separator {c : Char} {cs : List Char} {ls : List Lexeme} (h : Token.isSeparator c = true)
      (more : Munches cs ls) : Munches (c :: cs) ls
  | word {word rest : List Char} {l : Lexeme} {ls : List Lexeme}
      (longest : IsLongest word (word ++ rest)) (spelling : Spells word l)
      (more : Munches rest ls) : Munches (word ++ rest) (l :: ls)

theorem IsLongest.eq {word other cs : List Char} (h : IsLongest word cs)
    (ho : IsLongest other cs) : word = other := by
  have hle := ho.longest word h.isWord h.front
  have hge := h.longest other ho.isWord ho.front
  exact (List.prefix_of_prefix_length_le h.front ho.front hle).eq_of_length_le hge

theorem Spells.isWord {word : List Char} {l : Lexeme} (h : Spells word l) : IsWord word := by
  cases h with
  | operator operation => exact .operator operation
  | openParen => exact .openParen
  | closeParen => exact .closeParen
  | identifier h => exact .identifier h
  | number h _ _ => exact .number h

/-! ### The character a word starts with -/

theorem operation?_eq_some_iff (c : Char) (operation : Operation) :
    Token.operation? c = some operation ↔ c = operation.character := by
  constructor
  · intro h
    grind [Token.operation?, Operation.character]
  · rintro rfl
    cases operation <;> rfl

/-- A character that is a word by itself. -/
def IsSymbol (c : Char) : Prop :=
  c = '(' ∨ c = ')' ∨ ∃ operation : Operation, c = operation.character

/-- The classes of characters that words start with, and separators, are apart. -/
theorem IsSymbol.apart {c : Char} (h : IsSymbol c) :
    ¬Token.isNumeral c = true ∧ ¬isIdentifierStart c = true ∧ ¬Token.isSeparator c = true := by
  rcases h with rfl | rfl | ⟨operation, rfl⟩
  · decide
  · decide
  · cases operation <;> decide

theorem IsSymbol.not_isNumeral {c : Char} (h : IsSymbol c) : ¬Token.isNumeral c = true :=
  h.apart.1

theorem IsSymbol.not_isIdentifierStart {c : Char} (h : IsSymbol c) :
    ¬isIdentifierStart c = true :=
  h.apart.2.1

theorem not_isIdentifierStart_of_isNumeral {c : Char} (h : Token.isNumeral c = true) :
    ¬isIdentifierStart c = true := by
  intro hstart
  have hle := toNat_le_of_isNumeral h
  rcases Bool.or_eq_true_iff.mp hstart with halpha | hunderscore
  · rcases Bool.or_eq_true_iff.mp halpha with hupper | hlower
    · have hge : 'A'.toNat ≤ c.toNat :=
        UInt32.le_iff_toNat_le.mp (of_decide_eq_true hupper).1
      exact absurd (Nat.le_trans hge hle) (by decide)
    · have hge : 'a'.toNat ≤ c.toNat :=
        UInt32.le_iff_toNat_le.mp (of_decide_eq_true (Bool.and_eq_true_iff.mp hlower).1)
      exact absurd (Nat.le_trans hge hle) (by decide)
  · rw [beq_iff_eq.mp hunderscore] at hle
    exact absurd hle (by decide)

/-- The first character of a number is a digit or a point. -/
theorem IsNumber.front {mantissa exponent word : List Char} {c : Char}
    (h : IsNumber mantissa exponent) (heq : mantissa ++ exponent = c :: word) :
    Token.isNumeral c = true := by
  obtain ⟨first, rest, rfl⟩ := List.exists_cons_of_ne_nil h.nonempty
  have hfirst : first = c := (List.cons.inj heq).1
  exact hfirst ▸ h.numeral first (by simp)

theorem front_of_isIdentifier {c : Char} {word : List Char} (h : isIdentifier (c :: word) = true) :
    isIdentifierStart c = true :=
  (Bool.and_eq_true_iff.mp h).1

theorem ne_nil_of_isIdentifier {name : List Char} (h : isIdentifier name = true) : name ≠ [] := by
  rintro rfl
  cases h

theorem isIdentifierRest_of_start {c : Char} (h : isIdentifierStart c = true) :
    isIdentifierRest c = true := by
  rcases Bool.or_eq_true_iff.mp h with halpha | hunderscore
  · exact Bool.or_eq_true_iff.mpr (Or.inl (Bool.or_eq_true_iff.mpr (Or.inl halpha)))
  · exact Bool.or_eq_true_iff.mpr (Or.inr hunderscore)

theorem code_of_isIdentifierRest {c : Char} (h : isIdentifierRest c = true) :
    48 ≤ c.toNat ∧ c.toNat ≤ 57 ∨ 65 ≤ c.toNat ∧ c.toNat ≤ 90 ∨ c.toNat = 95 ∨
      97 ≤ c.toNat ∧ c.toNat ≤ 122 := by
  rcases Bool.or_eq_true_iff.mp h with halphanum | hunderscore
  · rcases Bool.or_eq_true_iff.mp halphanum with halpha | hdigit
    · rcases Bool.or_eq_true_iff.mp halpha with hupper | hlower
      · obtain ⟨hge, hle⟩ := of_decide_eq_true hupper
        exact Or.inr (Or.inl ⟨UInt32.le_iff_toNat_le.mp hge, UInt32.le_iff_toNat_le.mp hle⟩)
      · obtain ⟨hge, hle⟩ := Bool.and_eq_true_iff.mp hlower
        exact Or.inr (Or.inr (Or.inr ⟨UInt32.le_iff_toNat_le.mp (of_decide_eq_true hge),
          UInt32.le_iff_toNat_le.mp (of_decide_eq_true hle)⟩))
    · exact Or.inl (Char.isDigit_iff_toNat.mp hdigit)
  · rw [beq_iff_eq.mp hunderscore]
    exact Or.inr (Or.inr (Or.inl rfl))

theorem isIdentifierRest_of_mem {name : List Char} (h : isIdentifier name = true) {c : Char}
    (hc : c ∈ name) : isIdentifierRest c = true := by
  cases name with
  | nil => cases h
  | cons first rest =>
      obtain ⟨hfirst, hrest⟩ := Bool.and_eq_true_iff.mp h
      rcases List.mem_cons.mp hc with rfl | hc
      · exact isIdentifierRest_of_start hfirst
      · exact List.all_eq_true.mp hrest c hc

/-- A word is a symbol, an identifier or a number, as its first character says. -/
theorem IsWord.cases_front {c : Char} {word : List Char} (h : IsWord (c :: word)) :
    (IsSymbol c ∧ word = []) ∨ (isIdentifierStart c = true ∧ isIdentifier (c :: word) = true) ∨
      (Token.isNumeral c = true ∧ ∃ mantissa exponent, IsNumber mantissa exponent ∧
        mantissa ++ exponent = c :: word) := by
  generalize hw : c :: word = w at h
  cases h with
  | operator operation =>
      cases hw
      exact .inl ⟨.inr (.inr ⟨operation, rfl⟩), rfl⟩
  | openParen =>
      cases hw
      exact .inl ⟨.inl rfl, rfl⟩
  | closeParen =>
      cases hw
      exact .inl ⟨.inr (.inl rfl), rfl⟩
  | identifier h =>
      rw [← hw] at h ⊢
      exact .inr (.inl ⟨front_of_isIdentifier h, h⟩)
  | number h => exact .inr (.inr ⟨h.front hw.symm, _, _, h, rfl⟩)

theorem IsWord.ne_nil {word : List Char} (h : IsWord word) : word ≠ [] := by
  rintro rfl
  generalize hw : ([] : List Char) = w at h
  cases h with
  | operator operation => cases hw
  | openParen => cases hw
  | closeParen => cases hw
  | identifier h =>
      rw [← hw] at h
      cases h
  | number h => exact h.nonempty (List.append_eq_nil_iff.mp hw.symm).1

/-- A longest word is still the longest in front of a text that goes on differently, from a
character on that is in no word of more than one. -/
theorem IsLongest.of_fork {word common before after : List Char} {c : Char}
    (h : IsLongest word (word ++ (common ++ before)))
    (hc : ∀ other, IsWord other → c ∈ other → other.length = 1) :
    IsLongest word (word ++ (common ++ c :: after)) := by
  refine ⟨h.isWord, ⟨_, rfl⟩, ?_⟩
  intro other hother hfront
  have hcommon : word ++ common <+: word ++ (common ++ c :: after) := ⟨c :: after, by simp⟩
  by_cases hlength : other.length ≤ (word ++ common).length
  · -- The other word ends in front of the character, where both texts are the same.
    have hinside : other <+: word ++ common :=
      List.prefix_of_prefix_length_le hfront hcommon hlength
    exact h.longest other hother (hinside.trans ⟨before, by simp⟩)
  · have hmem : c ∈ other := by
      have hpast : word ++ common ++ [c] <+: other := by
        refine List.prefix_of_prefix_length_le ⟨after, by simp⟩ hfront ?_
        rw [List.length_append, List.length_singleton]
        omega
      exact hpast.subset (by simp)
    rw [hc other hother hmem]
    exact List.length_pos_iff.mpr h.isWord.ne_nil

/-- A word at the front of a text has the first character of the text. -/
theorem IsWord.front_eq {c : Char} {word cs : List Char} (h : IsWord word)
    (hfront : word <+: c :: cs) : ∃ rest, word = c :: rest ∧ rest <+: cs := by
  rcases List.prefix_cons_iff.mp hfront with hnil | ⟨rest, rfl, hrest⟩
  · exact absurd hnil h.ne_nil
  · exact ⟨rest, rfl, hrest⟩

/-- Where an exponent starts, no digit or point goes on with the mantissa. -/
theorem IsExponent.stops {exponent : List Char} (h : IsExponent exponent)
    (nonempty : exponent ≠ []) (cs : List Char) :
    (exponent ++ cs).takeWhile Token.isNumeral = [] ∧
      (exponent ++ cs).dropWhile Token.isNumeral = exponent ++ cs := by
  cases h with
  | none => exact absurd rfl nonempty
  | digits isLetter _ _ _ => rcases isLetter with rfl | rfl <;> exact ⟨rfl, rfl⟩

/-! ### What the scanner takes -/

theorem length_le_takeWhile {p : Char → Bool} {word cs : List Char} (hfront : word <+: cs)
    (h : ∀ c ∈ word, p c = true) : word.length ≤ (cs.takeWhile p).length := by
  obtain ⟨rest, rfl⟩ := hfront
  rw [List.takeWhile_append_of_pos h, List.length_append]
  omega

theorem mem_takeWhile {p : Char → Bool} {cs : List Char} :
    ∀ c ∈ cs.takeWhile p, p c = true :=
  List.all_eq_true.mp List.all_takeWhile

namespace Token

theorem scanSign_fst (cs : List Char) :
    (scanSign cs).1 = [] ∨ (scanSign cs).1 = ['+'] ∨ (scanSign cs).1 = ['-'] := by
  unfold scanSign
  split
  · exact .inr (.inl rfl)
  · exact .inr (.inr rfl)
  · exact .inl rfl

/-- A sign in front of digits is scanned, and so is none. -/
theorem scanSign_digits {sign digits : List Char}
    (isSign : sign = [] ∨ sign = ['+'] ∨ sign = ['-']) (nonempty : digits ≠ [])
    (all : ∀ c ∈ digits, c.isDigit = true) (cs : List Char) :
    scanSign (sign ++ (digits ++ cs)) = (sign, digits ++ cs) := by
  obtain ⟨first, rest, rfl⟩ := List.exists_cons_of_ne_nil nonempty
  have hfirst := all first (by simp)
  rcases isSign with rfl | rfl | rfl
  · rw [List.nil_append, List.cons_append]
    unfold scanSign
    split
    · rename_i hplus
      rw [(List.cons.inj hplus).1] at hfirst
      exact absurd hfirst (by decide)
    · rename_i hminus
      rw [(List.cons.inj hminus).1] at hfirst
      exact absurd hfirst (by decide)
    · rfl
  · rfl
  · rfl

theorem isExponent_scanExponent (cs : List Char) : IsExponent (scanExponent cs).1 := by
  cases cs with
  | nil => exact .none
  | cons letter cs =>
      simp only [scanExponent]
      split
      · rename_i h
        obtain ⟨hletter, hdigits⟩ := Bool.and_eq_true_iff.mp h
        refine .digits (by simpa using hletter) (scanSign_fst cs) ?_ mem_takeWhile
        simpa using hdigits
      · exact .none

/-- An exponent that is there is scanned at least as far. -/
theorem length_le_scanExponent {exponent : List Char} (h : IsExponent exponent)
    (cs : List Char) : exponent.length ≤ (scanExponent (exponent ++ cs)).1.length := by
  cases h with
  | none => exact Nat.zero_le _
  | @digits letter sign digits isLetter isSign nonempty all =>
      have hsign := scanSign_digits isSign nonempty all cs
      have htake : (digits ++ cs).takeWhile Char.isDigit = digits ++ cs.takeWhile Char.isDigit :=
        List.takeWhile_append_of_pos all
      have hletter : (letter == 'e' || letter == 'E') = true := by simpa using isLetter
      rw [List.cons_append, List.append_assoc]
      simp only [scanExponent, hsign, htake, hletter]
      simp [nonempty]

theorem isNumber_scanNumber {c : Char} (h : isNumeral c = true) (cs : List Char) :
    IsNumber ((c :: cs).takeWhile isNumeral)
      (scanExponent ((c :: cs).dropWhile isNumeral)).1 := by
  refine ⟨?_, mem_takeWhile, isExponent_scanExponent _⟩
  rw [List.takeWhile_cons_of_pos h]
  exact List.cons_ne_nil _ _

/-- A number at the front of a text is scanned at least as far. -/
theorem length_le_scanNumber {mantissa exponent cs : List Char} (h : IsNumber mantissa exponent)
    (hfront : mantissa ++ exponent <+: cs) :
    (mantissa ++ exponent).length ≤ (scanNumber cs).1.length := by
  obtain ⟨rest, rfl⟩ := hfront
  rw [List.append_assoc, List.length_append, scanNumber, List.length_append]
  -- Behind an empty exponent more digits may stand, which the scanner takes as well.
  by_cases hempty : exponent = []
  · have hle := length_le_takeWhile (List.prefix_append mantissa (exponent ++ rest)) h.numeral
    rw [hempty, List.length_nil]
    rw [hempty] at hle
    omega
  · obtain ⟨htake, hdrop⟩ := h.exponent.stops hempty rest
    rw [List.takeWhile_append_of_pos h.numeral, List.dropWhile_append_of_pos h.numeral, htake,
      hdrop, List.append_nil]
    have hle := length_le_scanExponent h.exponent rest
    omega

end Token

/-! ### The scanner takes the longest word -/

theorem isLongest_symbol {c : Char} (h : IsSymbol c) (cs : List Char) :
    IsLongest [c] (c :: cs) := by
  have hword : IsWord [c] := by
    rcases h with rfl | rfl | ⟨operation, rfl⟩
    · exact .openParen
    · exact .closeParen
    · exact .operator operation
  refine ⟨hword, ⟨cs, rfl⟩, ?_⟩
  intro other ho hfront
  obtain ⟨rest, rfl, -⟩ := ho.front_eq hfront
  rcases ho.cases_front with ⟨-, rfl⟩ | ⟨hstart, -⟩ | ⟨hnumeral, -⟩
  · exact Nat.le_refl _
  · exact absurd hstart h.not_isIdentifierStart
  · exact absurd hnumeral h.not_isNumeral

theorem isLongest_identifier {c : Char} (h : isIdentifierStart c = true) (cs : List Char) :
    IsLongest (c :: cs.takeWhile isIdentifierRest) (c :: cs) := by
  have hword : isIdentifier (c :: cs.takeWhile isIdentifierRest) = true :=
    Bool.and_eq_true_iff.mpr ⟨h, List.all_takeWhile⟩
  refine ⟨.identifier hword, List.cons_prefix_cons.mpr ⟨rfl, List.takeWhile_prefix _⟩, ?_⟩
  intro other ho hfront
  obtain ⟨rest, rfl, hrest⟩ := ho.front_eq hfront
  rcases ho.cases_front with ⟨hsymbol, -⟩ | ⟨-, hident⟩ | ⟨hnumeral, -⟩
  · exact absurd h hsymbol.not_isIdentifierStart
  · have hall := List.all_eq_true.mp (Bool.and_eq_true_iff.mp hident).2
    exact Nat.succ_le_succ (length_le_takeWhile hrest hall)
  · exact absurd h (not_isIdentifierStart_of_isNumeral hnumeral)

theorem isLongest_number {c : Char} (h : Token.isNumeral c = true) (cs : List Char) :
    IsLongest (Token.scanNumber (c :: cs)).1 (c :: cs) := by
  refine ⟨.number (Token.isNumber_scanNumber h cs), ⟨_, Token.scanNumber_append _⟩, ?_⟩
  intro other ho hfront
  obtain ⟨rest, rfl, hrest⟩ := ho.front_eq hfront
  rcases ho.cases_front with ⟨hsymbol, -⟩ | ⟨hstart, -⟩ | ⟨-, mantissa, exponent, hnumber, heq⟩
  · exact absurd h hsymbol.not_isNumeral
  · exact absurd hstart (not_isIdentifierStart_of_isNumeral h)
  · rw [← heq] at hfront ⊢
    exact Token.length_le_scanNumber hnumber hfront

namespace Token

theorem scan_operator (operation : Operation) (cs : List Char) :
    scan operation.character cs =
      .ok ⟨.operator operation, [operation.character], cs⟩ := by
  have hop := (operation?_eq_some_iff _ operation).mpr rfl
  simp [scan, hop]

theorem operation?_eq_none {c : Char} (h : ¬IsSymbol c) : operation? c = none := by
  refine Option.eq_none_iff_forall_ne_some.mpr fun operation hop => ?_
  exact h (.inr (.inr ⟨operation, (operation?_eq_some_iff c operation).mp hop⟩))

theorem ne_parens {c : Char} (h : ¬IsSymbol c) : c ≠ '(' ∧ c ≠ ')' :=
  ⟨fun hc => h (.inl hc), fun hc => h (.inr (.inl hc))⟩

theorem scan_number {c : Char} (h : isNumeral c = true) (cs : List Char) :
    scan c cs =
      match Decimal.readFloat? (scanNumber (c :: cs)).1 with
      | some value => .ok ⟨.number value, (scanNumber (c :: cs)).1, (scanNumber (c :: cs)).2⟩
      | none => .error (.malformedNumber (String.ofList (scanNumber (c :: cs)).1)) := by
  have hsymbol : ¬IsSymbol c := fun hc => hc.not_isNumeral h
  obtain ⟨hopen, hclose⟩ := ne_parens hsymbol
  have hread : Decimal.readFloat? (scanNumber (c :: cs)).1 =
      (Decimal.read? (scanNumber (c :: cs)).1).map Decimal.toFloat :=
    Decimal.readFloat?_of_isNumber (isNumber_scanNumber h cs)
  rw [hread]
  simp only [scan, operation?_eq_none hsymbol, beq_iff_eq, hopen, hclose, h, if_true, if_false]
  cases Decimal.read? (scanNumber (c :: cs)).1 <;> rfl

theorem scan_identifier {c : Char} (h : isIdentifierStart c = true) (cs : List Char) :
    scan c cs =
      .ok ⟨.identifier (String.ofList (c :: cs.takeWhile isIdentifierRest)),
        c :: cs.takeWhile isIdentifierRest, cs.dropWhile isIdentifierRest⟩ := by
  have hsymbol : ¬IsSymbol c := fun hc => hc.not_isIdentifierStart h
  have hnumeral : ¬isNumeral c = true := fun hc => not_isIdentifierStart_of_isNumeral hc h
  obtain ⟨hopen, hclose⟩ := ne_parens hsymbol
  simp [scan, operation?_eq_none hsymbol, hopen, hclose, hnumeral, h]

/-- A character that starts no word is not scanned. -/
theorem scan_other {c : Char} (hsymbol : ¬IsSymbol c) (hnumeral : isNumeral c ≠ true)
    (hstart : isIdentifierStart c ≠ true) (cs : List Char) :
    scan c cs = .error (.unexpectedCharacter c) := by
  obtain ⟨hopen, hclose⟩ := ne_parens hsymbol
  simp [scan, operation?_eq_none hsymbol, hopen, hclose, hnumeral, hstart]

/-- **What is scanned is the longest word, and the lexeme that it spells.** -/
theorem longest_of_scan {c : Char} {cs : List Char} {s : Scan} (h : scan c cs = .ok s) :
    IsLongest s.source (c :: cs) ∧ Spells s.source s.lexeme := by
  by_cases hsymbol : IsSymbol c
  · have hlongest := isLongest_symbol hsymbol cs
    rcases hsymbol with rfl | rfl | ⟨operation, rfl⟩
    · cases h
      exact ⟨hlongest, .openParen⟩
    · cases h
      exact ⟨hlongest, .closeParen⟩
    · rw [scan_operator] at h
      cases h
      exact ⟨hlongest, .operator operation⟩
  by_cases hnumeral : isNumeral c = true
  · have hnumber := isNumber_scanNumber hnumeral cs
    rw [scan_number hnumeral] at h
    cases hread : Decimal.readFloat? (scanNumber (c :: cs)).1 with
    | none =>
        rw [hread] at h
        cases h
    | some value =>
        rw [hread] at h
        cases h
        refine ⟨isLongest_number hnumeral cs, .number hnumber ?_ hread⟩
        exact (Decimal.isSome_readFloat?_iff hnumber).mp (Option.isSome_of_eq_some hread)
  by_cases hstart : isIdentifierStart c = true
  · rw [scan_identifier hstart] at h
    cases h
    refine ⟨isLongest_identifier hstart cs, .identifier ?_⟩
    exact Bool.and_eq_true_iff.mpr ⟨hstart, List.all_takeWhile⟩
  · rw [scan_other hsymbol hnumeral hstart] at h
    cases h

/-- **A longest word that spells a lexeme is scanned as that lexeme.** -/
theorem scan_of_longest {c : Char} {cs word rest : List Char} {l : Lexeme}
    (heq : word ++ rest = c :: cs) (hlongest : IsLongest word (c :: cs))
    (hspells : Spells word l) : scan c cs = .ok ⟨l, word, rest⟩ := by
  cases hspells with
  | operator operation =>
      cases heq
      exact scan_operator operation rest
  | openParen =>
      cases heq
      rfl
  | closeParen =>
      cases heq
      rfl
  | identifier h =>
      obtain ⟨others, rfl, -⟩ := hlongest.isWord.front_eq hlongest.front
      have hstart := front_of_isIdentifier h
      have hword := hlongest.eq (isLongest_identifier hstart cs)
      have hrest : rest = cs.dropWhile isIdentifierRest := by
        have happ := (scan_append (scan_identifier hstart cs)).1
        rw [← hword] at happ
        exact List.append_cancel_left (heq.trans happ.symm)
      rw [scan_identifier hstart, ← hword, ← hrest]
  | number h readable reads =>
      obtain ⟨others, hfirst, -⟩ := hlongest.isWord.front_eq hlongest.front
      have hnumeral := h.front hfirst
      have hword := hlongest.eq (isLongest_number hnumeral cs)
      have hrest : rest = (scanNumber (c :: cs)).2 := by
        have happ := scanNumber_append (c :: cs)
        rw [← hword] at happ
        exact List.append_cancel_left (heq.trans happ.symm)
      rw [scan_number hnumeral, ← hword, ← hrest, reads]

/-! ### All words -/

theorem eq_of_isSeparator {c : Char} (h : isSeparator c = true) :
    c = ' ' ∨ c = '\t' ∨ c = '\r' ∨ c = '\n' := by
  simpa [isSeparator, or_assoc] using h

/-- No word starts with a separator. -/
theorem not_isSeparator_of_isWord {c : Char} {word : List Char} (h : IsWord (c :: word)) :
    ¬isSeparator c = true := by
  intro hsep
  rcases h.cases_front with ⟨hsymbol, -⟩ | ⟨hstart, -⟩ | ⟨hnumeral, -⟩
  · exact hsymbol.apart.2.2 hsep
  · rcases eq_of_isSeparator hsep with rfl | rfl | rfl | rfl <;> cases hstart
  · rcases eq_of_isSeparator hsep with rfl | rfl | rfl | rfl <;> cases hnumeral

theorem munches_of_allFrom {position : Nat} {cs : List Char} {tokens : List Token}
    (h : allFrom position cs = .ok tokens) : Munches cs (tokens.map Token.lexeme) := by
  fun_induction allFrom position cs generalizing tokens with
  | case1 position =>
      cases h
      exact .nil
  | case2 position c cs hsep ih => exact .separator hsep (ih h)
  | case3 position c cs hsep cause hscan => cases h
  | case4 position c cs hsep s hscan error hmore ih => cases h
  | case5 position c cs hsep s hscan more hmore ih =>
      cases h
      obtain ⟨hlongest, hspells⟩ := longest_of_scan hscan
      have happ := (scan_append hscan).1
      rw [← happ] at hlongest ⊢
      exact .word hlongest hspells (ih hmore)

/-- Where no separator stands, the scanned lexeme is the first token. -/
theorem allFrom_cons_eq_ok_iff {position : Nat} {c : Char} {cs : List Char}
    {tokens : List Token} (hsep : ¬isSeparator c = true) :
    allFrom position (c :: cs) = .ok tokens ↔
      ∃ s more, scan c cs = .ok s ∧
        allFrom (position + byteLength s.source) s.rest = .ok more ∧
        tokens = ⟨s.lexeme, s.source, position⟩ :: more := by
  rw [allFrom, if_neg hsep]
  split
  · rename_i cause hscan
    simp [hscan]
  · rename_i s hscan
    cases hmore : allFrom (position + byteLength s.source) s.rest with
    | error stop => simp [hscan, hmore]
    | ok more => simp [hscan, hmore, eq_comm]

theorem allFrom_of_munches {cs : List Char} {ls : List Lexeme} (h : Munches cs ls)
    (position : Nat) :
    ∃ tokens, allFrom position cs = .ok tokens ∧ tokens.map Token.lexeme = ls := by
  induction h generalizing position with
  | nil => exact ⟨[], by rw [allFrom], rfl⟩
  | separator hsep more ih =>
      obtain ⟨tokens, hall, hmap⟩ := ih (position + 1)
      refine ⟨tokens, ?_, hmap⟩
      rw [allFrom, if_pos hsep]
      exact hall
  | @word word rest l ls longest spelling more ih =>
      obtain ⟨c, others, rfl⟩ := List.exists_cons_of_ne_nil longest.isWord.ne_nil
      have hsep := not_isSeparator_of_isWord longest.isWord
      have hscan : scan c (others ++ rest) = .ok ⟨l, c :: others, rest⟩ :=
        scan_of_longest rfl longest spelling
      obtain ⟨tokens, hall, hmap⟩ := ih (position + byteLength (c :: others))
      have htokens := (allFrom_cons_eq_ok_iff hsep).mpr ⟨_, tokens, hscan, hall, rfl⟩
      exact ⟨_, htokens, by rw [List.map_cons, hmap]⟩

/-- **The tokens of a text are the longest words it is cut into.** -/
theorem all_eq_ok_iff (cs : List Char) (ls : List Lexeme) :
    (∃ tokens, all cs = .ok tokens ∧ tokens.map Token.lexeme = ls) ↔ Munches cs ls := by
  constructor
  · rintro ⟨tokens, hall, rfl⟩
    exact munches_of_allFrom hall
  · intro h
    exact allFrom_of_munches h 0

end Token

end ChartScript
