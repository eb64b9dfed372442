/-
Cutting arithmetic text into tokens by offsets.

This is the cut as a loop over the bytes of a text.  It looks at single bytes and never asks whether
an offset is at a boundary; only the text of a word, and a character that starts no word, are cut
out of the text, which fails if it is not.

It never does, and the tokens are the same as those that are cut from characters.  A separator, and
each character of a word, takes one byte, so the loop always stands at a boundary.  A character that
takes more bytes is in no class of its own, and its first byte is in none either, so there the loop
stops.
-/
import ChartScript.Arithmetic.Parse
import ChartScript.Proofs.Arithmetic.Munch
import ChartScript.Proofs.Text.Offset

namespace ChartScript

open Text

namespace Token

/-! ### Classes of bytes -/

/-- The letter of an exponent. -/
def isExponentMark (c : Char) : Bool :=
  c == 'e' || c == 'E'

/-- A sign in an exponent. -/
def isSign (c : Char) : Bool :=
  c == '+' || c == '-'

theorem isAscii_isExponentMark : IsAscii isExponentMark := by
  intro c h
  rcases Bool.or_eq_true_iff.mp h with h | h
  · exact beq_iff_eq.mp h ▸ by decide
  · exact beq_iff_eq.mp h ▸ by decide

theorem isAscii_isSign : IsAscii isSign := by
  intro c h
  rcases Bool.or_eq_true_iff.mp h with h | h
  · exact beq_iff_eq.mp h ▸ by decide
  · exact beq_iff_eq.mp h ▸ by decide

theorem isAscii_isSeparator : IsAscii isSeparator := by
  intro c h
  rcases eq_of_isSeparator h with rfl | rfl | rfl | rfl <;> decide

theorem isAscii_isDigit : IsAscii Char.isDigit := by
  intro c h
  exact (Char.isDigit_iff_toNat.mp h).2.trans_lt (by decide)

theorem isAscii_isNumeral : IsAscii isNumeral :=
  fun _ h => (toNat_le_of_isNumeral h).trans_lt (by decide)

theorem isAscii_isIdentifierRest : IsAscii isIdentifierRest := by
  intro c h
  have hcode := code_of_isIdentifierRest h
  omega

theorem isAscii_isIdentifierStart : IsAscii isIdentifierStart :=
  fun c h => isAscii_isIdentifierRest c (isIdentifierRest_of_start h)

theorem toNat_lt_of_isSymbol {c : Char} (h : IsSymbol c) : c.toNat < 128 := by
  rcases h with rfl | rfl | ⟨operation, rfl⟩
  · decide
  · decide
  · cases operation <;> decide

/-! ### Numbers -/

/-- The offset behind the sign at an offset, if there is one. -/
def signEnd (bs : List UInt8) (start : Nat) : Nat :=
  if standsAt isSign bs start then start + 1 else start

/-- The offset behind the exponent at an offset, if there is one with a digit in it. -/
def exponentEnd (bs : List UInt8) (start : Nat) : Nat :=
  if standsAt isExponentMark bs start && standsAt Char.isDigit bs (signEnd bs (start + 1)) then
    skip Char.isDigit bs (signEnd bs (start + 1))
  else start

/-- The offset behind the number that starts at an offset. -/
def numberEnd (bs : List UInt8) (start : Nat) : Nat :=
  exponentEnd bs (skip isNumeral bs start)

theorem le_signEnd (bs : List UInt8) (start : Nat) : start ≤ signEnd bs start := by
  unfold signEnd
  split
  · exact Nat.le_succ start
  · exact Nat.le_refl start

theorem le_exponentEnd (bs : List UInt8) (start : Nat) : start ≤ exponentEnd bs start := by
  unfold exponentEnd
  split
  · calc
      start ≤ start + 1 := Nat.le_succ start
      _ ≤ signEnd bs (start + 1) := le_signEnd bs (start + 1)
      _ ≤ skip Char.isDigit bs (signEnd bs (start + 1)) := le_skip _ _ _
  · exact Nat.le_refl start

theorem lt_numberEnd {bs : List UInt8} {start : Nat} (h : standsAt isNumeral bs start = true) :
    start < numberEnd bs start :=
  (lt_skip h).trans_le (le_exponentEnd bs _)

theorem scanSign_cons {c : Char} (h : ¬isSign c = true) (cs : List Char) :
    scanSign (c :: cs) = ([], c :: cs) := by
  unfold scanSign
  split
  · rename_i heq
    exact absurd ((List.cons.inj heq).1 ▸ rfl : isSign c = true) h
  · rename_i heq
    exact absurd ((List.cons.inj heq).1 ▸ rfl : isSign c = true) h
  · rfl

theorem signEnd_append (front cs : List Char) :
    signEnd (bytes (front ++ cs)) (byteLength front) =
      byteLength front + byteLength (scanSign cs).1 := by
  rw [signEnd, standsAt_append isAscii_isSign]
  cases cs with
  | nil => rfl
  | cons c cs =>
      rw [List.head?_cons, Option.any_some]
      by_cases h : isSign c = true
      · rw [if_pos h]
        rcases Bool.or_eq_true_iff.mp h with h | h
        · rw [beq_iff_eq.mp h]
          rfl
        · rw [beq_iff_eq.mp h]
          rfl
      · rw [if_neg h, scanSign_cons h]
        rfl

theorem isEmpty_takeWhile (p : Char → Bool) (cs : List Char) :
    (cs.takeWhile p).isEmpty = !cs.head?.any p := by
  cases cs with
  | nil => rfl
  | cons c cs => cases h : p c <;> simp [h]

theorem exponentEnd_append (front cs : List Char) :
    exponentEnd (bytes (front ++ cs)) (byteLength front) =
      byteLength front + byteLength (scanExponent cs).1 := by
  rw [exponentEnd, standsAt_append isAscii_isExponentMark]
  cases cs with
  | nil => rfl
  | cons e cs =>
      rw [List.head?_cons, Option.any_some]
      by_cases he : isExponentMark e = true
      · have hone : e.utf8Size = 1 := isAscii_isExponentMark.utf8Size_eq_one he
        have hmark : byteLength front + 1 = byteLength (front ++ [e]) := by
          rw [byteLength_append, byteLength_cons, hone, byteLength_nil]
        -- Behind the mark stands a sign or none, and the digits are looked for behind that.
        have hsign : front ++ e :: cs = front ++ [e] ++ cs := by simp
        have hdigits : front ++ e :: cs = front ++ [e] ++ (scanSign cs).1 ++ (scanSign cs).2 := by
          rw [List.append_assoc _ (scanSign cs).1, scanSign_append, hsign]
        have hend : signEnd (bytes (front ++ e :: cs)) (byteLength front + 1) =
            byteLength (front ++ [e] ++ (scanSign cs).1) := by
          rw [hmark, hsign, signEnd_append, ← byteLength_append]
        rw [hend, hdigits, standsAt_append isAscii_isDigit, skip_append isAscii_isDigit]
        have he' : (e == 'e' || e == 'E') = true := he
        simp only [scanExponent, he, he', isEmpty_takeWhile, Bool.not_not, Bool.true_and]
        split
        · simp only [byteLength_append, byteLength_cons, byteLength_nil, List.cons_append]
          omega
        · rfl
      · have he' : ¬(e == 'e' || e == 'E') = true := he
        simp [scanExponent, he, he']

theorem numberEnd_append (front cs : List Char) :
    numberEnd (bytes (front ++ cs)) (byteLength front) =
      byteLength front + byteLength (scanNumber cs).1 := by
  have hsplit : front ++ cs = front ++ cs.takeWhile isNumeral ++ cs.dropWhile isNumeral := by
    rw [List.append_assoc, List.takeWhile_append_dropWhile]
  have hexponent := exponentEnd_append (front ++ cs.takeWhile isNumeral) (cs.dropWhile isNumeral)
  rw [← hsplit, byteLength_append] at hexponent
  rw [numberEnd, skip_append isAscii_isNumeral, hexponent, scanNumber, byteLength_append,
    Nat.add_assoc]

/-! ### One token -/

/-- Read the token at an offset, where a byte stands that is no separator.  With the token comes the
offset at which to go on. -/
def readAt? (cs : List Char) (start : Nat) (byte : Char) :
    Option (Except ParseError (Token × Nat)) :=
  match operation? byte with
  | some operation => some (.ok (⟨.operator operation, [byte], start⟩, start + 1))
  | none =>
      if byte == '(' then some (.ok (⟨.openParen, [byte], start⟩, start + 1))
      else if byte == ')' then some (.ok (⟨.closeParen, [byte], start⟩, start + 1))
      else if isNumeral byte then
        let stop := numberEnd (bytes cs) start
        (slice? cs start stop).map fun text =>
          match Decimal.readFloat? text with
          | some value => .ok (⟨.number value, text, start⟩, stop)
          | none => .error ⟨.malformedNumber (String.ofList text), start⟩
      else if isIdentifierStart byte then
        let stop := skip isIdentifierRest (bytes cs) start
        (slice? cs start stop).map fun text =>
          .ok (⟨.identifier (String.ofList text), text, start⟩, stop)
      else
        (from? cs start).map fun rest =>
          .error ⟨.unexpectedCharacter (rest.head?.getD '\x00'), start⟩

theorem lt_of_readAt? {cs : List Char} {start next : Nat} {b : UInt8} {token : Token}
    (hb : (bytes cs)[start]? = some b)
    (h : readAt? cs start (Char.ofUInt8 b) = some (.ok (token, next))) : start < next := by
  have hstands (p : Char → Bool) (hp : p (Char.ofUInt8 b) = true) :
      standsAt p (bytes cs) start = true := by
    rw [standsAt, hb]
    exact hp
  unfold readAt? at h
  split at h
  · cases h
    exact Nat.lt_succ_self start
  split at h
  · cases h
    exact Nat.lt_succ_self start
  split at h
  · cases h
    exact Nat.lt_succ_self start
  split at h
  · rename_i hnumeral
    simp only at h
    obtain ⟨text, -, hread⟩ := Option.map_eq_some_iff.mp h
    split at hread
    · cases hread
      exact lt_numberEnd (hstands _ hnumeral)
    · cases hread
  split at h
  · rename_i hidentifier
    obtain ⟨text, -, hread⟩ := Option.map_eq_some_iff.mp h
    cases hread
    exact lt_skip (hstands _ (isIdentifierRest_of_start hidentifier))
  · obtain ⟨rest, -, hread⟩ := Option.map_eq_some_iff.mp h
    cases hread

/-- What is read at the front of a text, with the offset behind it. -/
def placed (start : Nat) : Except ParseError.Cause Scan → Except ParseError (Token × Nat)
  | .ok s => .ok (⟨s.lexeme, s.source, start⟩, start + byteLength s.source)
  | .error cause => .error ⟨cause, start⟩

/-- **At a boundary the token is read that stands there.** -/
theorem readAt?_append (front cs : List Char) (c : Char) :
    readAt? (front ++ c :: cs) (byteLength front) (lead c) =
      some (placed (byteLength front) (scan c cs)) := by
  by_cases hsymbol : IsSymbol c
  · rw [lead_of_lt (toNat_lt_of_isSymbol hsymbol)]
    rcases hsymbol with rfl | rfl | ⟨operation, rfl⟩
    · rfl
    · rfl
    · rw [scan_operator]
      cases operation <;> rfl
  have hlead : ¬IsSymbol (lead c) := by
    intro h
    by_cases hc : c.toNat < 128
    · exact hsymbol (lead_of_lt hc ▸ h)
    · exact absurd (toNat_lt_of_isSymbol h) (Nat.not_lt.mpr (le_toNat_lead (Nat.le_of_not_lt hc)))
  obtain ⟨hopen, hclose⟩ := ne_parens hlead
  simp only [readAt?, operation?_eq_none hlead, beq_iff_eq, hopen, hclose, if_false,
    isAscii_isNumeral.apply_lead, isAscii_isIdentifierStart.apply_lead]
  split
  · rename_i hnumeral
    rw [numberEnd_append, scan_number hnumeral]
    have hslice := slice?_append front (scanNumber (c :: cs)).1 (scanNumber (c :: cs)).2
    rw [scanNumber_append] at hslice
    rw [hslice, Option.map_some]
    cases hread : Decimal.readFloat? (scanNumber (c :: cs)).1 with
    | none => simp only [placed]
    | some value => simp only [placed]
  split
  · rename_i hstart
    have hslice := slice?_append front (c :: cs.takeWhile isIdentifierRest)
      (cs.dropWhile isIdentifierRest)
    rw [List.cons_append, List.takeWhile_append_dropWhile] at hslice
    rw [skip_append isAscii_isIdentifierRest, scan_identifier hstart,
      List.takeWhile_cons_of_pos (isIdentifierRest_of_start hstart), hslice]
    rfl
  · rename_i hnumeral hstart
    rw [from?_append, scan_other hsymbol hnumeral hstart]
    rfl

/-! ### All tokens -/

/-- The tokens of a text from an offset on. -/
def allAt? (cs : List Char) (offset : Nat) : Option (Except ParseError (List Token)) :=
  match _hb : (bytes cs)[offset]? with
  | none => some (.ok [])
  | some b =>
      if isSeparator (Char.ofUInt8 b) then allAt? cs (offset + 1)
      else
        match _hread : readAt? cs offset (Char.ofUInt8 b) with
        | none => none
        | some (.error e) => some (.error e)
        | some (.ok (token, next)) =>
            (allAt? cs next).map fun
              | .error e => .error e
              | .ok tokens => .ok (token :: tokens)
termination_by (bytes cs).length - offset
decreasing_by
  · have hlt := (List.getElem?_eq_some_iff.mp _hb).1
    omega
  · have hlt := (List.getElem?_eq_some_iff.mp _hb).1
    have hnext := lt_of_readAt? _hb _hread
    omega

theorem allAt?_of_none {cs : List Char} {offset : Nat} (h : (bytes cs)[offset]? = none) :
    allAt? cs offset = some (.ok []) := by
  rw [allAt?]
  split
  · rfl
  · rename_i b hb
    rw [h] at hb
    cases hb

theorem allAt?_of_some {cs : List Char} {offset : Nat} {b : UInt8}
    (h : (bytes cs)[offset]? = some b) :
    allAt? cs offset =
      if isSeparator (Char.ofUInt8 b) then allAt? cs (offset + 1)
      else
        (readAt? cs offset (Char.ofUInt8 b)).bind fun
          | .error e => some (.error e)
          | .ok (token, next) => (allAt? cs next).map fun
              | .error e => .error e
              | .ok tokens => .ok (token :: tokens) := by
  rw [allAt?]
  split
  · rename_i hb
    rw [h] at hb
    cases hb
  · rename_i byte hb
    obtain rfl : b = byte := Option.some.inj (h.symm.trans hb)
    split
    · rfl
    · split <;> rename_i hread <;> rw [hread] <;> rfl

/-- At a boundary the loop goes on by the character that stands there. -/
theorem allAt?_cons (front cs : List Char) (c : Char) :
    allAt? (front ++ c :: cs) (byteLength front) =
      if isSeparator c then allAt? (front ++ c :: cs) (byteLength front + 1)
      else
        match scan c cs with
        | .error cause => some (.error ⟨cause, byteLength front⟩)
        | .ok s =>
            (allAt? (front ++ c :: cs) (byteLength front + byteLength s.source)).map fun
              | .error e => .error e
              | .ok tokens => .ok (⟨s.lexeme, s.source, byteLength front⟩ :: tokens) := by
  have hbyte := getElem?_bytes front (c :: cs)
  obtain ⟨b, hb, hlead⟩ := Option.map_eq_some_iff.mp hbyte
  rw [allAt?_of_some hb, hlead, isAscii_isSeparator.apply_lead, readAt?_append]
  cases scan c cs <;> rfl

/-- **The tokens read by offsets are the tokens of the text.** -/
theorem allAt?_append (front cs : List Char) (position : Nat) (h : byteLength front = position) :
    allAt? (front ++ cs) position = some (allFrom position cs) := by
  fun_induction allFrom position cs generalizing front with
  | case1 position =>
      refine allAt?_of_none ?_
      have hbyte := getElem?_bytes front []
      rw [h] at hbyte
      exact Option.map_eq_none_iff.mp hbyte
  | case2 position c cs hsep ih =>
      have hone : byteLength (front ++ [c]) = position + 1 := by
        rw [byteLength_append, byteLength_cons, isAscii_isSeparator.utf8Size_eq_one hsep,
          byteLength_nil, h]
      rw [← h, allAt?_cons, if_pos hsep, h, ← ih (front ++ [c]) hone, List.append_assoc]
      rfl
  | case3 position c cs hsep cause hscan =>
      rw [← h, allAt?_cons, if_neg hsep, hscan]
  | case4 position c cs hsep s hscan result hmore ih
  | case5 position c cs hsep s hscan result hmore ih =>
      have hsource : byteLength (front ++ s.source) = position + byteLength s.source := by
        rw [byteLength_append, h]
      have hrest := ih (front ++ s.source) hsource
      rw [List.append_assoc, (scan_append hscan).1, hmore] at hrest
      rw [← h, allAt?_cons, if_neg hsep, hscan, h]
      simp only [hrest, Option.map_some]

theorem allAt?_zero (cs : List Char) : allAt? cs 0 = some (all cs) :=
  allAt?_append [] cs 0 rfl

end Token

namespace Arithmetic

/-- The expression that a text makes, which is read by offsets. -/
def parseAt? (cs : List Char) : Option (Except ParseError Arithmetic) :=
  (Token.allAt? cs 0).map fun
    | .error e => .error e
    | .ok tokens => ofTokens (byteLength cs) tokens

theorem parseAt?_eq (cs : List Char) : parseAt? cs = some (parse cs) := by
  rw [parseAt?, Token.allAt?_zero, parse]
  cases Token.all cs <;> rfl

end Arithmetic

end ChartScript
