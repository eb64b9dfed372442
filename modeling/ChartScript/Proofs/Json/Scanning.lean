/-
The tokens of written JSON.

Both ways to write a value have the same tokens.  They differ only in the blanks between
them: `laid` writes a value with given gaps, and compact and spread texts are two instances
of it.  `scans_laid` shows that the tokens of a value are what its text is scanned into, by
induction over the value.

A token ends where the next character cannot go on with it.  Marks, strings and blanks end
by themselves; numbers and words end because what is written behind them is a mark or a
blank, which `Delimits` says of a text.
-/
import ChartScript.Json.Token
import ChartScript.Json.Write

namespace ChartScript

open Text

/-- A numeral that JSON can write: digits on both sides of the point, the whole part with
no superfluous zero in front. -/
structure Numeral.IsWritable (n : Numeral) : Prop where
  nonempty : n.whole ≠ []
  whole : ∀ c ∈ n.whole, c.isDigit = true
  zero : n.whole.head? = some '0' → n.whole = ['0']
  fraction : ∀ c ∈ n.fraction, c.isDigit = true

/-- Digits behind their point, if there are any. -/
def Numeral.fractionText (fraction : List Char) : List Char :=
  if fraction.isEmpty then [] else '.' :: fraction

/-- The text of a numeral behind its sign. -/
def Numeral.unsignedText (n : Numeral) : List Char :=
  n.whole ++ (fractionText n.fraction ++ exponentText n.exponent)

theorem Numeral.text_eq (n : Numeral) :
    n.text = (if n.negative then ['-'] else []) ++ n.unsignedText := by
  simp [text, unsignedText, fractionText]

namespace Json

/-! ### Which values are written and how -/

mutual

/-- Whether a value can be written and read again: its numerals are such that JSON can write
them, and its strings have a text. -/
def IsWritable : Json → Prop
  | .null => True
  | .bool _ => True
  | .number written => written.IsWritable
  | .text value => value.isSome = true
  | .list items => AreWritable items
  | .object members => AreMembersWritable members

/-- Whether all of some values can be written. -/
def AreWritable : List Json → Prop
  | [] => True
  | item :: items => IsWritable item ∧ AreWritable items

/-- Whether all of some members can be written. -/
def AreMembersWritable : List (Option String × Json) → Prop
  | [] => True
  | (key, value) :: members => key.isSome = true ∧ IsWritable value ∧ AreMembersWritable members

end

mutual

theorem isKeyed_of_isWritable : ∀ value : Json, value.IsWritable → value.isKeyed = true
  | .null, _ => rfl
  | .bool _, _ => rfl
  | .number _, _ => rfl
  | .text _, _ => rfl
  | .list items, h => areKeyed_of_areWritable items h
  | .object members, h => membersAreKeyed_of_areMembersWritable members h

theorem areKeyed_of_areWritable : ∀ items : List Json, AreWritable items → areKeyed items = true
  | [], _ => rfl
  | item :: items, h => by
      rw [areKeyed, isKeyed_of_isWritable item h.1, areKeyed_of_areWritable items h.2]
      rfl

theorem membersAreKeyed_of_areMembersWritable :
    ∀ members : List (Option String × Json), AreMembersWritable members →
      membersAreKeyed members = true
  | [], _ => rfl
  | (key, value) :: members, h => by
      rw [membersAreKeyed, h.1, isKeyed_of_isWritable value h.2.1,
        membersAreKeyed_of_areMembersWritable members h.2.2]
      rfl

end

/-- What can be read again is written without a failure. -/
theorem write?_of_isWritable {value : Json} (h : value.IsWritable) (pretty : Bool) :
    value.write? pretty = .ok (value.write pretty) := by
  rw [write?, if_pos (isKeyed_of_isWritable value h)]

mutual

/-- The tokens of a value. -/
def tokens : Json → List Token
  | .null => [.null]
  | .bool value => [.bool value]
  | .number written => [.number written]
  | .text value => [.text value]
  | .list [] => [.openList, .closeList]
  | .list (item :: items) => .openList :: tokens item ++ itemTokens items ++ [.closeList]
  | .object [] => [.openObject, .closeObject]
  | .object ((key, value) :: members) =>
      .openObject :: .text key :: .colon :: tokens value ++ memberTokens members ++ [.closeObject]

/-- The tokens of the items of a list behind its first. -/
def itemTokens : List Json → List Token
  | [] => []
  | item :: items => .comma :: tokens item ++ itemTokens items

/-- The tokens of the members of an object behind its first. -/
def memberTokens : List (Option String × Json) → List Token
  | [] => []
  | (key, value) :: members =>
      .comma :: .text key :: .colon :: tokens value ++ memberTokens members

end

section Layouts

variable (gap : Nat → List Char) (space : List Char)

mutual

/-- The text of a value, `depth` steps in, with a gap in front of every part of a list or an
object and of its end, and a space behind every colon. -/
def laid (depth : Nat) : Json → List Char
  | .null => "null".toList
  | .bool value => boolText value
  | .number written => written.text
  | .text value => quoted value
  | .list [] => ['[', ']']
  | .list (item :: items) =>
      '[' :: gap (depth + 1) ++ laid (depth + 1) item ++ laidItems (depth + 1) items ++
        gap depth ++ [']']
  | .object [] => ['\x7b', '\x7d']
  | .object ((key, value) :: members) =>
      '\x7b' :: gap (depth + 1) ++ quoted key ++ ':' :: space ++ laid (depth + 1) value ++
        laidMembers (depth + 1) members ++ gap depth ++ ['\x7d']

/-- The items of a list behind its first. -/
def laidItems (depth : Nat) : List Json → List Char
  | [] => []
  | item :: items => ',' :: gap depth ++ laid depth item ++ laidItems depth items

/-- The members of an object behind its first. -/
def laidMembers (depth : Nat) : List (Option String × Json) → List Char
  | [] => []
  | (key, value) :: members =>
      ',' :: gap depth ++ quoted key ++ ':' :: space ++ laid depth value ++
        laidMembers depth members

end

end Layouts

mutual

/-- A compact text is laid out without any gaps. -/
theorem compact_eq_laid (depth : Nat) : ∀ value, compact value = laid (fun _ => []) [] depth value
  | .null | .bool _ | .number _ | .text _ | .list [] | .object [] => rfl
  | .list (item :: items) => by
      simp [compact, laid, compact_eq_laid (depth + 1) item, compactItems_eq_laid (depth + 1) items]
  | .object ((key, value) :: members) => by
      simp [compact, laid, compact_eq_laid (depth + 1) value,
        compactMembers_eq_laid (depth + 1) members]

theorem compactItems_eq_laid (depth : Nat) :
    ∀ items, compactItems items = laidItems (fun _ => []) [] depth items
  | [] => rfl
  | item :: items => by
      simp [compactItems, laidItems, compact_eq_laid depth item, compactItems_eq_laid depth items]

theorem compactMembers_eq_laid (depth : Nat) :
    ∀ members, compactMembers members = laidMembers (fun _ => []) [] depth members
  | [] => rfl
  | (key, value) :: members => by
      simp [compactMembers, laidMembers, compact_eq_laid depth value,
        compactMembers_eq_laid depth members]

end

mutual

/-- A spread text is laid out with new lines for gaps. -/
theorem spread_eq_laid (depth : Nat) : ∀ value, spread depth value = laid newLine [' '] depth value
  | .null | .bool _ | .number _ | .text _ | .list [] | .object [] => rfl
  | .list (item :: items) => by
      simp [spread, laid, spread_eq_laid (depth + 1) item, spreadItems_eq_laid (depth + 1) items]
  | .object ((key, value) :: members) => by
      simp [spread, laid, spread_eq_laid (depth + 1) value,
        spreadMembers_eq_laid (depth + 1) members]

theorem spreadItems_eq_laid (depth : Nat) :
    ∀ items, spreadItems depth items = laidItems newLine [' '] depth items
  | [] => rfl
  | item :: items => by
      simp [spreadItems, laidItems, spread_eq_laid depth item, spreadItems_eq_laid depth items]

theorem spreadMembers_eq_laid (depth : Nat) :
    ∀ members, spreadMembers depth members = laidMembers newLine [' '] depth members
  | [] => rfl
  | (key, value) :: members => by
      simp [spreadMembers, laidMembers, spread_eq_laid depth value,
        spreadMembers_eq_laid depth members]

end

namespace Token

/-! ### Where a token ends -/

/-- Neither a number nor a word goes on in a text. -/
def Delimits (cs : List Char) : Prop :=
  ∀ c ∈ cs.head?, c.isDigit = false ∧ c.isAlpha = false ∧ c ≠ '.'

/-- A text is scanned into some tokens, whatever follows that no token goes on in. -/
def Scans (cs : List Char) (tokens : List Token) : Prop :=
  ∀ rest others, Delimits rest → all? rest = some others → all? (cs ++ rest) = some (tokens ++ others)

theorem delimits_nil : Delimits [] := by
  intro c hc
  cases hc

theorem delimits_cons {c : Char} (hdigit : c.isDigit = false) (halpha : c.isAlpha = false)
    (hpoint : c ≠ '.') (cs : List Char) : Delimits (c :: cs) := by
  intro d hd
  cases hd
  exact ⟨hdigit, halpha, hpoint⟩

theorem takeWhile_append_of_delimits {p : Char → Bool} {cs rest : List Char}
    (hcs : ∀ c ∈ cs, p c = true) (hrest : ∀ c ∈ rest.head?, p c = false) :
    (cs ++ rest).takeWhile p = cs ∧ (cs ++ rest).dropWhile p = rest := by
  rw [List.takeWhile_append_of_pos hcs, List.dropWhile_append_of_pos hcs]
  cases rest with
  | nil => simp
  | cons c rest => simp [hrest c rfl]

/-- One token in front of the others. -/
theorem all?_cons {c : Char} {cs rest : List Char} {token : Token} (hblank : isBlank c = false)
    (hscan : scan? c cs = some (token, rest)) : all? (c :: cs) = (all? rest).map (token :: ·) := by
  rw [all?]
  split
  · rename_i h
    rw [hblank] at h
    cases h
  · split
    · rename_i h
      rw [hscan] at h
      cases h
    · rename_i h
      rw [hscan] at h
      cases h
      rfl

theorem scans_nil : Scans [] [] := by
  intro rest others _ h
  exact h

/-- What is scanned in front of a text that a token can end at. -/
theorem Scans.append {xs ys : List Char} {ts us : List Token} (hxs : Scans xs ts)
    (hys : Scans ys us) (hfront : ∀ rest, Delimits rest → Delimits (ys ++ rest)) :
    Scans (xs ++ ys) (ts ++ us) := by
  intro rest others hrest hothers
  rw [List.append_assoc, List.append_assoc]
  exact hxs _ _ (hfront rest hrest) (hys rest others hrest hothers)

/-- A mark is a token whatever follows it. -/
theorem scans_mark {c : Char} {token : Token} (hmark : mark? c = some token)
    (hblank : isBlank c = false) {cs : List Char} {ts : List Token} (h : Scans cs ts) :
    Scans (c :: cs) (token :: ts) := by
  intro rest others hrest hothers
  have hscan : scan? c (cs ++ rest) = some (token, cs ++ rest) := by
    unfold scan?
    rw [hmark]
  rw [List.cons_append, all?_cons hblank hscan, h rest others hrest hothers]
  rfl

/-- Blanks mean nothing. -/
theorem scans_blanks {blanks cs : List Char} {ts : List Token}
    (hblanks : ∀ c ∈ blanks, isBlank c = true) (h : Scans cs ts) : Scans (blanks ++ cs) ts := by
  induction blanks with
  | nil => exact h
  | cons c blanks ih =>
      have hc : isBlank c = true := hblanks c List.mem_cons_self
      intro rest others hrest hothers
      rw [List.cons_append, List.cons_append, all?, if_pos hc]
      exact ih (fun d hd => hblanks d (List.mem_cons_of_mem c hd)) rest others hrest hothers

/-! ### Strings -/

/-- The hexadecimal digits of a control character give its number. -/
theorem hexCode?_hexDigit {n : Nat} (h : n < 0x20) :
    hexCode? '0' '0' (hexDigit (n / 16)) (hexDigit (n % 16)) = some n := by
  have hall : ∀ m, m < 0x20 →
      hexCode? '0' '0' (hexDigit (m / 16)) (hexDigit (m % 16)) = some m := by decide
  exact hall n h

/-- A character inside a string is written as a letter behind a backslash that stands for
it, as its number, or as itself. -/
theorem escape_cases (c : Char) :
    (∃ e, e ≠ 'u' ∧ escaped? e = some c ∧ escape c = ['\\', e]) ∨
      (c.toNat < 0x20 ∧
        escape c = ['\\', 'u', '0', '0', hexDigit (c.toNat / 16), hexDigit (c.toNat % 16)]) ∨
      (c ≠ '\x22' ∧ c ≠ '\\' ∧ ¬c.toNat < 0x20 ∧ escape c = [c]) := by
  have hletter : ∀ d e, e ≠ 'u' → escaped? e = some d → escape d = ['\\', e] → c = d →
      ∃ e, e ≠ 'u' ∧ escaped? e = some c ∧ escape c = ['\\', e] := by
    intro d e hu hescaped hd hc
    subst hc
    exact ⟨e, hu, hescaped, hd⟩
  by_cases hquote : c = '\x22'
  · exact Or.inl (hletter _ '\x22' (by decide) rfl rfl hquote)
  by_cases hslash : c = '\\'
  · exact Or.inl (hletter _ '\\' (by decide) rfl rfl hslash)
  by_cases hback : c = '\x08'
  · exact Or.inl (hletter _ 'b' (by decide) rfl rfl hback)
  by_cases hform : c = '\x0c'
  · exact Or.inl (hletter _ 'f' (by decide) rfl rfl hform)
  by_cases hnew : c = '\n'
  · exact Or.inl (hletter _ 'n' (by decide) rfl rfl hnew)
  by_cases hreturn : c = '\r'
  · exact Or.inl (hletter _ 'r' (by decide) rfl rfl hreturn)
  by_cases htab : c = '\t'
  · exact Or.inl (hletter _ 't' (by decide) rfl rfl htab)
  by_cases hcontrol : c.toNat < 0x20
  · refine Or.inr (Or.inl ⟨hcontrol, ?_⟩)
    simp [escape, hquote, hslash, hback, hform, hnew, hreturn, htab, hcontrol]
  · refine Or.inr (Or.inr ⟨hquote, hslash, hcontrol, ?_⟩)
    simp [escape, hquote, hslash, hback, hform, hnew, hreturn, htab, hcontrol]

/-- A character inside a string is read as one piece, which stands for it. -/
theorem pieces?_escape (c : Char) :
    ∃ piece,
      (∀ rest, pieces? (escape c ++ rest) =
        (pieces? rest).map fun (others, rest) => (piece :: others, rest)) ∧
      ∀ others, assemble? (piece :: others) = (assemble? others).map (c :: ·) := by
  rcases escape_cases c with ⟨e, hu, hescaped, hc⟩ | ⟨hcontrol, hc⟩ | ⟨hquote, hslash, hcontrol, hc⟩
  · refine ⟨.char c, fun rest => ?_, fun others => rfl⟩
    rw [hc]
    simp [pieces?.eq_def ('\\' :: e :: rest), hu, hescaped]
  · refine ⟨.unit c.toNat, fun rest => ?_, fun others => ?_⟩
    · rw [hc]
      simp [pieces?.eq_def ('\\' :: 'u' :: _), hexCode?_hexDigit hcontrol]
    · have hhigh : isHighHalf c.toNat = false := by simp [isHighHalf]; omega
      have hlow : isLowHalf c.toNat = false := by simp [isLowHalf]; omega
      rw [assemble?.eq_def]
      simp [hhigh, hlow]
  · refine ⟨.char c, fun rest => ?_, fun others => rfl⟩
    rw [hc]
    simp [pieces?.eq_def (c :: rest), hquote, hslash, hcontrol]

/-- A string is scanned up to its closing quote. -/
theorem pieces?_flatMap_escape (cs rest : List Char) :
    ∃ pieces, pieces? (cs.flatMap escape ++ '\x22' :: rest) = some (pieces, rest) ∧
      assemble? pieces = some cs := by
  induction cs with
  | nil => exact ⟨[], by simp [pieces?.eq_def ('\x22' :: rest)], rfl⟩
  | cons c cs ih =>
      obtain ⟨others, hothers, hcs⟩ := ih
      obtain ⟨piece, hpiece, hc⟩ := pieces?_escape c
      refine ⟨piece :: others, ?_, by rw [hc, hcs]; rfl⟩
      rw [List.flatMap_cons, List.append_assoc, hpiece, hothers]
      rfl

theorem scans_quoted (s : String) {cs : List Char} {ts : List Token} (h : Scans cs ts) :
    Scans (quoted (some s) ++ cs) (.text (some s) :: ts) := by
  intro rest others hrest hothers
  obtain ⟨pieces, hpieces, htext⟩ := pieces?_flatMap_escape s.toList (cs ++ rest)
  have hscan : scan? '\x22' (s.toList.flatMap escape ++ '\x22' :: (cs ++ rest)) =
      some (.text (some s), cs ++ rest) := by
    show (pieces? _).map _ = _
    rw [hpieces]
    simp [htext]
  have hsplit : quoted (some s) ++ cs ++ rest =
      '\x22' :: (s.toList.flatMap escape ++ '\x22' :: (cs ++ rest)) := by
    simp [quoted]
  rw [hsplit, all?_cons (by decide) hscan, h rest others hrest hothers]
  rfl

/-! ### Numbers and words -/

theorem isDigit_of_mem_digits {n : Nat} {c : Char} (h : c ∈ digits n) : c.isDigit = true :=
  Nat.isDigit_of_mem_toDigits (by decide) (by decide) h

/-- An exponent is read up to its end. -/
theorem exponent?_exponentText (exponent : Option Int) {rest : List Char} (h : Delimits rest) :
    exponent? (Numeral.exponentText exponent ++ rest) = some (exponent, rest) := by
  cases exponent with
  | none =>
      show exponent? rest = some (none, rest)
      cases rest with
      | nil => rfl
      | cons c rest =>
          obtain ⟨-, halpha, -⟩ := h c rfl
          have he : c ≠ 'e' := fun hc => by rw [hc] at halpha; cases halpha
          have hE : c ≠ 'E' := fun hc => by rw [hc] at halpha; cases halpha
          simp [exponent?, he, hE]
  | some e =>
      have hrest : ∀ c ∈ rest.head?, c.isDigit = false := fun c hc => (h c hc).1
      obtain ⟨htake, hdrop⟩ := takeWhile_append_of_delimits
        (fun c hc => isDigit_of_mem_digits (n := e.natAbs) hc) hrest
      have hne : (digits e.natAbs).isEmpty = false := by
        simp [digits, Nat.toDigits_ne_nil]
      have hvalue : ofDigits (digits e.natAbs) = e.natAbs := Nat.ofDigitChars_ten_toDigits
      by_cases hneg : e < 0
      · have hsign : Numeral.exponentText (some e) ++ rest =
            'e' :: '-' :: (digits e.natAbs ++ rest) := by
          have : ¬0 ≤ e := by omega
          simp [Numeral.exponentText, signedDigits, hneg, this]
        have he : -Int.ofNat e.natAbs = e := by
          rw [Int.ofNat_eq_natCast]
          omega
        rw [hsign]
        simp only [exponent?, exponentSign, htake, hdrop, hne, hvalue, he, beq_self_eq_true,
          Bool.true_or, if_true, Bool.false_eq_true, if_false]
      · have hsign : Numeral.exponentText (some e) ++ rest =
            'e' :: '+' :: (digits e.natAbs ++ rest) := by
          have : 0 ≤ e := by omega
          simp [Numeral.exponentText, signedDigits, hneg, this]
        have he : Int.ofNat e.natAbs = e := by
          rw [Int.ofNat_eq_natCast]
          omega
        rw [hsign]
        simp only [exponent?, exponentSign, htake, hdrop, hne, hvalue, he, beq_self_eq_true,
          Bool.true_or, if_true, Bool.false_eq_true, if_false]

/-- Digits behind a point are read up to the exponent. -/
theorem fraction?_fractionText {fraction rest : List Char}
    (hfraction : ∀ c ∈ fraction, c.isDigit = true)
    (hrest : ∀ c ∈ rest.head?, c.isDigit = false ∧ c ≠ '.') :
    fraction? (Numeral.fractionText fraction ++ rest) = some (fraction, rest) := by
  by_cases hempty : fraction = []
  · subst hempty
    show fraction? rest = _
    unfold fraction?
    split
    · exact absurd rfl (hrest '.' rfl).2
    · rfl
  · obtain ⟨htake, hdrop⟩ :=
      takeWhile_append_of_delimits hfraction fun c hc => (hrest c hc).1
    have hne : fraction.isEmpty = false := by simpa using hempty
    simp [Numeral.fractionText, hne, fraction?, htake, hdrop]

/-- The whole part is read up to the point. -/
theorem whole_whole {n : Numeral} (hn : n.IsWritable) {rest : List Char}
    (hrest : ∀ c ∈ rest.head?, c.isDigit = false) : whole (n.whole ++ rest) = (n.whole, rest) := by
  by_cases hzero : n.whole.head? = some '0'
  · rw [hn.zero hzero]
    rfl
  · obtain ⟨htake, hdrop⟩ := takeWhile_append_of_delimits hn.whole hrest
    unfold whole
    split
    · rename_i others hothers
      cases hwhole : n.whole with
      | nil => exact absurd hwhole hn.nonempty
      | cons c cs =>
          rw [hwhole] at hothers hzero
          cases hothers
          exact absurd rfl hzero
    · rw [htake, hdrop]

/-- A numeral is read behind its sign, whatever the text of its exponent is. -/
theorem number?_of_exponent {n : Numeral} (hn : n.IsWritable) {exponent rest : List Char}
    (hread : exponent? (exponent ++ rest) = some (n.exponent, rest))
    (hfront : ∀ c ∈ (exponent ++ rest).head?, c.isDigit = false ∧ c ≠ '.') :
    number? n.negative (n.whole ++ (Numeral.fractionText n.fraction ++ exponent) ++ rest) =
      some (n, rest) := by
  have hfraction : ∀ c ∈ (Numeral.fractionText n.fraction ++ (exponent ++ rest)).head?,
      c.isDigit = false := by
    intro c hc
    unfold Numeral.fractionText at hc
    by_cases hempty : n.fraction.isEmpty = true
    · rw [if_pos hempty] at hc
      exact (hfront c hc).1
    · rw [if_neg hempty] at hc
      cases hc
      rfl
  have hany : (Numeral.fractionText n.fraction ++ (exponent ++ rest)).head?.any Char.isDigit =
      false := by
    cases hhead : (Numeral.fractionText n.fraction ++ (exponent ++ rest)).head? with
    | none => rfl
    | some c => exact hfraction c (by rw [hhead]; rfl)
  have hne : n.whole.isEmpty = false := by simpa using hn.nonempty
  simp only [number?, List.append_assoc, whole_whole hn hfraction,
    fraction?_fractionText hn.fraction hfront, hread, hne, hany, Bool.or_self,
    Bool.false_eq_true, if_false]

theorem number?_unsignedText {n : Numeral} (hn : n.IsWritable) {rest : List Char}
    (h : Delimits rest) : number? n.negative (n.unsignedText ++ rest) = some (n, rest) := by
  refine number?_of_exponent hn (exponent?_exponentText n.exponent h) ?_
  intro c hc
  cases hexp : n.exponent with
  | none =>
      rw [hexp] at hc
      exact ⟨(h c hc).1, (h c hc).2.2⟩
  | some e =>
      rw [hexp] at hc
      cases hc
      decide

/-- A character of a class differs from one outside it. -/
theorem beq_eq_false_of_class {p : Char → Bool} {c d : Char} (hc : p c = true)
    (hd : p d = false) : (c == d) = false := by
  rw [beq_eq_false_iff_ne]
  intro h
  rw [h, hd] at hc
  cases hc

/-- A number is a token, with a sign or without. -/
theorem scans_signed {n : Numeral} {unsigned : List Char}
    (hfront : ∃ c cs, unsigned = c :: cs ∧ c.isDigit = true)
    (hnumber : ∀ rest, Delimits rest → number? n.negative (unsigned ++ rest) = some (n, rest)) :
    Scans ((if n.negative then ['-'] else []) ++ unsigned) [.number n] := by
  intro rest others hrest hothers
  have hread := hnumber rest hrest
  by_cases hnegative : n.negative = true
  · rw [hnegative] at hread ⊢
    have hscan : scan? '-' (unsigned ++ rest) = some (.number n, rest) := by
      show (number? true _).map _ = _
      rw [hread]
      rfl
    rw [if_pos rfl, List.singleton_append, List.cons_append, all?_cons (by decide) hscan, hothers]
    rfl
  · rw [Bool.not_eq_true] at hnegative
    rw [hnegative] at hread ⊢
    obtain ⟨c, cs, rfl, hdigit⟩ := hfront
    have hne : ∀ d : Char, d.isDigit = false → (c == d) = false :=
      fun d hd => beq_eq_false_of_class hdigit hd
    rw [List.cons_append] at hread
    have hscan : scan? c (cs ++ rest) = some (.number n, rest) := by
      simp [scan?, mark?, hne, hdigit, hread]
    show all? (c :: (cs ++ rest)) = _
    rw [all?_cons (by simp [isBlank, hne]) hscan, hothers]
    rfl

/-- A whole part stands in front, and it starts with a digit. -/
theorem exists_digit_cons {n : Numeral} (hn : n.IsWritable) (rest : List Char) :
    ∃ c cs, n.whole ++ rest = c :: cs ∧ c.isDigit = true := by
  obtain ⟨c, cs, hwhole⟩ := List.exists_cons_of_ne_nil hn.nonempty
  exact ⟨c, cs ++ rest, by rw [hwhole]; rfl, hn.whole c (by simp [hwhole])⟩

theorem scans_number {n : Numeral} (hn : n.IsWritable) : Scans n.text [.number n] := by
  rw [Numeral.text_eq]
  exact scans_signed (exists_digit_cons hn _) fun rest hrest => number?_unsignedText hn hrest

/-- A word is read up to its end. -/
theorem scans_word {c : Char} {cs : List Char} {token : Token} (hc : c.isAlpha = true)
    (hdigit : c.isDigit = false) (hcs : cs.all Char.isAlpha = true)
    (hword : word? (c :: cs) = some token) : Scans (c :: cs) [token] := by
  intro rest others hrest hothers
  have hne : ∀ d : Char, d.isAlpha = false → (c == d) = false :=
    fun d hd => beq_eq_false_of_class hc hd
  obtain ⟨htake, hdrop⟩ := takeWhile_append_of_delimits
    (List.all_eq_true.mp hcs) fun d hd => (hrest d hd).2.1
  have hscan : scan? c (cs ++ rest) = some (token, rest) := by
    simp [scan?, mark?, hne, hdigit, htake, hdrop, hword]
  rw [List.cons_append, all?_cons (by simp [isBlank, hne]) hscan, hothers]
  rfl

/-! ### All of a value -/

variable {gap : Nat → List Char} {space : List Char}

/-- Blanks are neither digits nor letters nor points. -/
theorem delimits_of_blanks {blanks cs : List Char} (hblanks : ∀ c ∈ blanks, isBlank c = true)
    (h : Delimits cs) : Delimits (blanks ++ cs) := by
  cases blanks with
  | nil => exact h
  | cons c blanks =>
      have hc := hblanks c List.mem_cons_self
      simp only [isBlank, Bool.or_eq_true, beq_iff_eq] at hc
      rcases hc with ((rfl | rfl) | rfl) | rfl <;>
        exact delimits_cons (by decide) (by decide) (by decide) _

/-- A text that is scanned into some tokens and at which any token ends. -/
structure Closes (cs : List Char) (tokens : List Token) : Prop where
  scans : Scans cs tokens
  delimits : ∀ rest, Delimits (cs ++ rest)

theorem Scans.append_closes {xs ys : List Char} {ts us : List Token} (hxs : Scans xs ts)
    (hys : Closes ys us) : Scans (xs ++ ys) (ts ++ us) :=
  hxs.append hys.scans fun rest _ => hys.delimits rest

/-- A mark that neither a number nor a word goes on with. -/
theorem closes_mark {c : Char} {token : Token} {cs : List Char} {ts : List Token}
    (hmark : mark? c = some token) (hblank : isBlank c = false) (hdelimits : Delimits [c])
    (h : Scans cs ts) : Closes (c :: cs) (token :: ts) := by
  obtain ⟨hdigit, halpha, hpoint⟩ := hdelimits c rfl
  exact ⟨scans_mark hmark hblank h, fun rest => delimits_cons hdigit halpha hpoint _⟩

theorem closes_blanks {blanks cs : List Char} {ts : List Token}
    (hblanks : ∀ c ∈ blanks, isBlank c = true) (h : Closes cs ts) :
    Closes (blanks ++ cs) ts := by
  refine ⟨scans_blanks hblanks h.scans, fun rest => ?_⟩
  rw [List.append_assoc]
  exact delimits_of_blanks hblanks (h.delimits rest)

mutual

/-- **The text of a value is scanned into the tokens of the value**, however it is laid
out. -/
theorem scans_laid (hgap : ∀ depth, ∀ c ∈ gap depth, isBlank c = true)
    (hspace : ∀ c ∈ space, isBlank c = true) (depth : Nat) :
    ∀ value : Json, value.IsWritable → Scans (laid gap space depth value) value.tokens
  | .null, _ => scans_word (by decide) (by decide) (by decide) (by decide)
  | .bool true, _ => scans_word (by decide) (by decide) (by decide) (by decide)
  | .bool false, _ => scans_word (by decide) (by decide) (by decide) (by decide)
  | .number _, h => scans_number h
  | .text (some s), _ => by
      have hquoted := scans_quoted s scans_nil
      rwa [List.append_nil] at hquoted
  | .list [], _ => scans_mark rfl rfl (scans_mark rfl rfl scans_nil)
  | .list (item :: items), h => by
      have hend := closes_blanks (hgap depth)
        (closes_mark (c := ']') rfl rfl (delimits_cons rfl rfl (by decide) []) scans_nil)
      have hitems := closes_laidItems hgap hspace (depth + 1) items h.2 hend
      have hitem := (scans_laid hgap hspace (depth + 1) item h.1).append_closes hitems
      simp only [laid, tokens, List.cons_append, List.append_assoc]
      exact scans_mark rfl rfl (scans_blanks (hgap (depth + 1)) hitem)
  | .object [], _ => scans_mark rfl rfl (scans_mark rfl rfl scans_nil)
  | .object ((some key, value) :: members), h => by
      have hend := closes_blanks (hgap depth)
        (closes_mark (c := '\x7d') rfl rfl (delimits_cons rfl rfl (by decide) []) scans_nil)
      have hmembers := closes_laidMembers hgap hspace (depth + 1) members h.2.2 hend
      have hvalue := (scans_laid hgap hspace (depth + 1) value h.2.1).append_closes hmembers
      have hcolon := scans_mark (c := ':') rfl rfl (scans_blanks hspace hvalue)
      simp only [laid, tokens, List.cons_append, List.append_assoc]
      exact scans_mark rfl rfl (scans_blanks (hgap (depth + 1)) (scans_quoted key hcolon))

theorem closes_laidItems (hgap : ∀ depth, ∀ c ∈ gap depth, isBlank c = true)
    (hspace : ∀ c ∈ space, isBlank c = true) (depth : Nat) :
    ∀ items : List Json, AreWritable items → ∀ {cs : List Char} {ts : List Token}, Closes cs ts →
      Closes (laidItems gap space depth items ++ cs) (itemTokens items ++ ts)
  | [], _, _, _, hend => hend
  | item :: items, h, _, _, hend => by
      have hitems := closes_laidItems hgap hspace depth items h.2 hend
      have hitem := (scans_laid hgap hspace depth item h.1).append_closes hitems
      simp only [laidItems, itemTokens, List.cons_append, List.append_assoc]
      exact closes_mark rfl rfl (delimits_cons rfl rfl (by decide) [])
        (scans_blanks (hgap depth) hitem)

theorem closes_laidMembers (hgap : ∀ depth, ∀ c ∈ gap depth, isBlank c = true)
    (hspace : ∀ c ∈ space, isBlank c = true) (depth : Nat) :
    ∀ members : List (Option String × Json), AreMembersWritable members →
      ∀ {cs : List Char} {ts : List Token}, Closes cs ts →
        Closes (laidMembers gap space depth members ++ cs) (memberTokens members ++ ts)
  | [], _, _, _, hend => hend
  | (some key, value) :: members, h, _, _, hend => by
      have hmembers := closes_laidMembers hgap hspace depth members h.2.2 hend
      have hvalue := (scans_laid hgap hspace depth value h.2.1).append_closes hmembers
      have hcolon := scans_mark (c := ':') rfl rfl (scans_blanks hspace hvalue)
      simp only [laidMembers, memberTokens, List.cons_append, List.append_assoc]
      exact closes_mark rfl rfl (delimits_cons rfl rfl (by decide) [])
        (scans_blanks (hgap depth) (scans_quoted key hcolon))

end

/-- **Both ways to write a value have its tokens**, also with blanks behind them. -/
theorem all?_write {value : Json} (h : value.IsWritable) (pretty : Bool) {blanks : List Char}
    (hblanks : ∀ c ∈ blanks, isBlank c = true) :
    all? (write pretty value ++ blanks) = some value.tokens := by
  have hnewLine : ∀ depth, ∀ c ∈ newLine depth, isBlank c = true := by
    intro depth c hc
    rcases List.mem_cons.mp hc with rfl | hspaces
    · rfl
    · rw [List.eq_of_mem_replicate hspaces]
      rfl
  have hscans : Scans (write pretty value) value.tokens := by
    unfold write
    split
    · rw [spread_eq_laid]
      exact scans_laid hnewLine (by simp [isBlank]) 0 value h
    · rw [compact_eq_laid 0]
      exact scans_laid (by simp) (by simp) 0 value h
  have hend : all? blanks = some [] := by
    have hnone := scans_blanks hblanks scans_nil [] [] delimits_nil (by rw [all?])
    simpa using hnone
  have hdelimits : Delimits blanks := by
    have hfront := delimits_of_blanks hblanks delimits_nil
    rwa [List.append_nil] at hfront
  simpa using hscans blanks [] hdelimits hend

end Token

end Json

end ChartScript
