/-
JSON text as tokens.

A token is a mark, a word, a number or a string.  Blanks, of which JSON has four, stand
between tokens and mean nothing.  A number has no superfluous zero in front, and digits
on both sides of a point; a string has no control characters in it.
-/
import ChartScript.Json.Value
import ChartScript.Text.Digits

namespace ChartScript.Json

open Text

/-- A token of JSON text. -/
inductive Token where
  | openList
  | closeList
  | openObject
  | closeObject
  | comma
  | colon
  | null
  | bool (value : Bool)
  | number (written : Numeral)
  | text (value : Option String)
deriving DecidableEq

namespace Token

/-- A blank between tokens. -/
def isBlank (c : Char) : Bool :=
  c == ' ' || c == '\t' || c == '\n' || c == '\r'

/-! ### Strings -/

/-- A piece of a string: a character, or the number that an escape gives. -/
inductive Piece where
  | char (c : Char)
  | unit (code : Nat)
deriving DecidableEq, Repr

/-- The value of a hexadecimal digit. -/
def hexValue? (c : Char) : Option Nat :=
  if c.isDigit then some (c.toNat - 48)
  else if 'a' ≤ c ∧ c ≤ 'f' then some (c.toNat - 87)
  else if 'A' ≤ c ∧ c ≤ 'F' then some (c.toNat - 55)
  else none

/-- The number that four hexadecimal digits give. -/
def hexCode? (a b c d : Char) : Option Nat := do
  let a ← hexValue? a
  let b ← hexValue? b
  let c ← hexValue? c
  let d ← hexValue? d
  return ((a * 16 + b) * 16 + c) * 16 + d

/-- The character that a one-letter escape stands for. -/
def escaped? (c : Char) : Option Char :=
  if c == '\x22' || c == '\\' || c == '/' then some c
  else if c == 'b' then some '\x08'
  else if c == 'f' then some '\x0c'
  else if c == 'n' then some '\n'
  else if c == 'r' then some '\r'
  else if c == 't' then some '\t'
  else none

/-- The pieces of a string up to its closing quote, and what follows. -/
def pieces? : List Char → Option (List Piece × List Char)
  | [] => none
  | c :: rest =>
      if c == '\x22' then some ([], rest)
      else if c == '\\' then
        match rest with
        | [] => none
        | e :: rest =>
            if e == 'u' then
              match rest with
              | a :: b :: c :: d :: rest =>
                  match hexCode? a b c d with
                  | none => none
                  | some code =>
                      (pieces? rest).map fun (others, rest) => (.unit code :: others, rest)
              | _ => none
            else
              match escaped? e with
              | none => none
              | some c => (pieces? rest).map fun (others, rest) => (.char c :: others, rest)
      else if c.toNat < 0x20 then none
      else (pieces? rest).map fun (others, rest) => (.char c :: others, rest)

/-- The first half of a character beyond the first plane. -/
def isHighHalf (code : Nat) : Bool :=
  decide (0xD800 ≤ code) && decide (code < 0xDC00)

/-- The second half of such a character. -/
def isLowHalf (code : Nat) : Bool :=
  decide (0xDC00 ≤ code) && decide (code < 0xE000)

/-- The text of some pieces, if every half of a character stands before or behind its
other half. -/
def assemble? : List Piece → Option (List Char)
  | [] => some []
  | .char c :: rest => (assemble? rest).map (c :: ·)
  | .unit code :: rest =>
      if isHighHalf code then
        match rest with
        | .unit low :: rest =>
            if isLowHalf low then
              let whole := 0x10000 + (code - 0xD800) * 0x400 + (low - 0xDC00)
              (assemble? rest).map (Char.ofNat whole :: ·)
            else none
        | _ => none
      else if isLowHalf code then none
      else (assemble? rest).map (Char.ofNat code :: ·)

/-! ### Numbers -/

/-- The sign of an exponent, if it is negative, and what follows. -/
def exponentSign : List Char → Bool × List Char
  | '-' :: cs => (true, cs)
  | '+' :: cs => (false, cs)
  | cs => (false, cs)

/-- The exponent at the front of a text, if one starts there, and what follows. -/
def exponent? : List Char → Option (Option Int × List Char)
  | [] => some (none, [])
  | c :: cs =>
      if c == 'e' || c == 'E' then
        let (negative, tail) := exponentSign cs
        let ds := tail.takeWhile Char.isDigit
        if ds.isEmpty then none
        else
          let size := Int.ofNat (ofDigits ds)
          some (some (if negative then -size else size), tail.dropWhile Char.isDigit)
      else some (none, c :: cs)

/-- The digits behind a point at the front of a text, if one stands there, and what
follows. -/
def fraction? : List Char → Option (List Char × List Char)
  | '.' :: cs =>
      if (cs.takeWhile Char.isDigit).isEmpty then none
      else some (cs.takeWhile Char.isDigit, cs.dropWhile Char.isDigit)
  | cs => some ([], cs)

/-- The digits in front of the point, of which a zero at the start is the only one,
and what follows. -/
def whole : List Char → List Char × List Char
  | '0' :: rest => (['0'], rest)
  | cs => (cs.takeWhile Char.isDigit, cs.dropWhile Char.isDigit)

/-- The number at the front of a text, behind its sign, and what follows. -/
def number? (negative : Bool) (cs : List Char) : Option (Numeral × List Char) :=
  let (digits, rest) := whole cs
  if digits.isEmpty || rest.head?.any Char.isDigit then none
  else
    match fraction? rest with
    | none => none
    | some (fraction, rest) =>
        match exponent? rest with
        | none => none
        | some (exponent, rest) => some (⟨negative, digits, fraction, exponent⟩, rest)

/-! ### All tokens -/

/-- The token that a word is. -/
def word? (cs : List Char) : Option Token :=
  if cs == "null".toList then some .null
  else if cs == "true".toList then some (.bool true)
  else if cs == "false".toList then some (.bool false)
  else none

/-- The token that a single character is. -/
def mark? (c : Char) : Option Token :=
  if c == '[' then some .openList
  else if c == ']' then some .closeList
  else if c == '\x7b' then some .openObject
  else if c == '\x7d' then some .closeObject
  else if c == ',' then some .comma
  else if c == ':' then some .colon
  else none

/-- Read one token, which starts with `c`, and what follows. -/
def scan? (c : Char) (cs : List Char) : Option (Token × List Char) :=
  match mark? c with
  | some token => some (token, cs)
  | none =>
      if c == '\x22' then
        (pieces? cs).map fun (pieces, rest) =>
          (.text ((assemble? pieces).map String.ofList), rest)
      else if c == '-' then (number? true cs).map fun (n, rest) => (.number n, rest)
      else if c.isDigit then (number? false (c :: cs)).map fun (n, rest) => (.number n, rest)
      else
        (word? (c :: cs.takeWhile Char.isAlpha)).map fun token =>
          (token, cs.dropWhile Char.isAlpha)

/-! ### Every token takes some text -/

theorem length_dropWhile_le {α : Type} (p : α → Bool) (cs : List α) :
    (cs.dropWhile p).length ≤ cs.length :=
  (List.dropWhile_sublist p).length_le

theorem pieces?_length {cs rest : List Char} {ps : List Piece}
    (h : pieces? cs = some (ps, rest)) : rest.length < cs.length := by
  fun_induction pieces? cs generalizing ps rest with
  | case2 => cases h; simp
  | case5 =>
      rename_i ih
      obtain ⟨⟨qs, r⟩, hr, heq⟩ := Option.map_eq_some_iff.mp h
      cases heq
      have := ih hr
      simp only [List.length_cons]
      omega
  | case8 =>
      rename_i ih
      obtain ⟨⟨qs, r⟩, hr, heq⟩ := Option.map_eq_some_iff.mp h
      cases heq
      have := ih hr
      simp only [List.length_cons]
      omega
  | case10 =>
      rename_i ih
      obtain ⟨⟨qs, r⟩, hr, heq⟩ := Option.map_eq_some_iff.mp h
      cases heq
      have := ih hr
      simp only [List.length_cons]
      omega
  | _ => cases h

theorem whole_append (cs : List Char) : (whole cs).1 ++ (whole cs).2 = cs := by
  unfold whole
  split <;> simp [List.takeWhile_append_dropWhile]

theorem fraction?_length {cs rest ds : List Char} (h : fraction? cs = some (ds, rest)) :
    rest.length ≤ cs.length := by
  unfold fraction? at h
  split at h
  · split at h
    · cases h
    · cases h
      exact Nat.le_succ_of_le (length_dropWhile_le _ _)
  · cases h
    exact Nat.le_refl _

theorem exponentSign_length (cs : List Char) : (exponentSign cs).2.length ≤ cs.length := by
  unfold exponentSign
  split <;> simp

theorem exponent?_length {cs rest : List Char} {e : Option Int}
    (h : exponent? cs = some (e, rest)) : rest.length ≤ cs.length := by
  cases cs with
  | nil => cases h; exact Nat.le_refl _
  | cons c cs =>
      simp only [exponent?] at h
      split at h
      · split at h
        · cases h
        · cases h
          exact Nat.le_succ_of_le
            (Nat.le_trans (length_dropWhile_le _ _) (exponentSign_length cs))
      · cases h
        exact Nat.le_refl _

theorem number?_length {negative : Bool} {cs rest : List Char} {n : Numeral}
    (h : number? negative cs = some (n, rest)) : rest.length < cs.length := by
  simp only [number?] at h
  split at h
  · cases h
  rename_i hne
  split at h
  · cases h
  rename_i hf
  split at h
  · cases h
  rename_i he
  cases h
  have hw := congrArg List.length (whole_append cs)
  have hpos : 0 < (whole cs).1.length := by
    apply List.length_pos_iff.mpr
    intro hnil
    simp [hnil] at hne
  have := fraction?_length hf
  have := exponent?_length he
  simp only [List.length_append] at hw
  omega

theorem scan?_length {c : Char} {cs rest : List Char} {token : Token}
    (h : scan? c cs = some (token, rest)) : rest.length < (c :: cs).length := by
  unfold scan? at h
  split at h
  · cases h
    simp
  split at h
  · obtain ⟨⟨ps, r⟩, hr, heq⟩ := Option.map_eq_some_iff.mp h
    cases heq
    have := pieces?_length hr
    simp only [List.length_cons]
    omega
  split at h
  · obtain ⟨⟨n, r⟩, hr, heq⟩ := Option.map_eq_some_iff.mp h
    cases heq
    have := number?_length hr
    simp only [List.length_cons]
    omega
  split at h
  · obtain ⟨⟨n, r⟩, hr, heq⟩ := Option.map_eq_some_iff.mp h
    cases heq
    exact number?_length hr
  · obtain ⟨t, _, heq⟩ := Option.map_eq_some_iff.mp h
    cases heq
    exact Nat.lt_succ_of_le (length_dropWhile_le _ _)

/-- The tokens of a text, if it has no fault that shows in a single token. -/
def all? : List Char → Option (List Token)
  | [] => some []
  | c :: cs =>
      if isBlank c then all? cs
      else
        match _h : scan? c cs with
        | none => none
        | some (token, rest) => (all? rest).map (token :: ·)
termination_by cs => cs.length
decreasing_by
  · simp
  · exact scan?_length _h

end Token

end ChartScript.Json
