/-
Spacing in arithmetic text.

A text that is cut into tokens is its tokens and separators, and nothing else: each token is the
longest word at its place, the tokens follow one another, and what none of them covers is a
separator.

Separators are in no word.  So more of them between two tokens neither lengthen the token in front
nor shorten it, whatever the scanner looked at behind it, and the tokens behind are the same, each
as many bytes further on.  The reader does not look at places but to say where an error is, so it
reads the same expression, or the same error, which is further on if its token is.
-/
import ChartScript.Proofs.Arithmetic.Offence
import ChartScript.Proofs.Text.Offset

namespace ChartScript

open Text

/-! ### Words and separators -/

theorem IsWord.not_isSeparator_of_mem {word : List Char} (h : IsWord word) {c : Char}
    (hc : c ∈ word) : ¬Token.isSeparator c = true := by
  obtain ⟨others, l, hspells⟩ := h.startsLexeme_of_mem hc
  exact Token.not_isSeparator_of_isWord hspells.isWord

/-- A longest word is still the longest when separators are put in somewhere behind it. -/
theorem IsLongest.insert {word front back gap : List Char}
    (h : IsLongest word (word ++ (front ++ back)))
    (hgap : ∀ c ∈ gap, Token.isSeparator c = true) :
    IsLongest word (word ++ (front ++ (gap ++ back))) := by
  cases gap with
  | nil => exact h
  | cons c gap =>
      refine h.of_fork fun other hother hmem => ?_
      exact absurd (hgap c (List.mem_cons_self ..)) (hother.not_isSeparator_of_mem hmem)

namespace Token

/-! ### Places of tokens -/

/-- The byte behind a token. -/
def stop (token : Token) : Nat :=
  token.position + byteLength token.source

/-- A byte is one of those that a token was read from. -/
def Covers (token : Token) (place : Nat) : Prop :=
  token.position ≤ place ∧ place < token.stop

/-- The same token, some bytes further on. -/
def shift (n : Nat) (token : Token) : Token :=
  { token with position := token.position + n }

variable {position : Nat} {cs : List Char} {tokens : List Token}

/-- A token is the longest word at its place in the text. -/
theorem stands_of_allFrom (h : allFrom position cs = .ok tokens) {token : Token}
    (hmem : token ∈ tokens) :
    ∃ front rest, cs = front ++ (token.source ++ rest) ∧
      token.position = position + byteLength front ∧
      IsLongest token.source (token.source ++ rest) ∧ Spells token.source token.lexeme := by
  obtain ⟨before, after, rfl⟩ := List.append_of_mem hmem
  obtain ⟨front, rest, happend, hposition, -, hword⟩ := exists_front_of_allFrom h
  exact ⟨front, rest, happend, hposition, hword⟩

theorem le_position_of_allFrom (h : allFrom position cs = .ok tokens) {token : Token}
    (hmem : token ∈ tokens) : position ≤ token.position := by
  obtain ⟨front, rest, -, hposition, -⟩ := stands_of_allFrom h hmem
  omega

theorem position_lt_stop_of_allFrom (h : allFrom position cs = .ok tokens) {token : Token}
    (hmem : token ∈ tokens) : token.position < token.stop := by
  obtain ⟨front, rest, -, -, hlongest, -⟩ := stands_of_allFrom h hmem
  have hpos := byteLength_pos hlongest.isWord.ne_nil
  unfold stop
  omega

/-- Each token ends before the next one starts. -/
theorem pairwise_of_allFrom (h : allFrom position cs = .ok tokens) :
    tokens.Pairwise fun one later => one.stop ≤ later.position := by
  fun_induction allFrom position cs generalizing tokens with
  | case1 position =>
      cases h
      exact .nil
  | case2 position c cs hsep ih => exact ih h
  | case3 position c cs hsep cause hscan => cases h
  | case4 position c cs hsep s hscan error hmore ih => cases h
  | case5 position c cs hsep s hscan more hmore ih =>
      cases h
      exact .cons (fun later hlater => le_position_of_allFrom hmore hlater) (ih hmore)

/-- **What no token covers is a separator**, and no token covers a separator. -/
theorem exists_covers_iff (h : allFrom position cs = .ok tokens) {front rest : List Char}
    {c : Char} (hcs : cs = front ++ c :: rest) :
    (∃ token ∈ tokens, token.Covers (position + byteLength front)) ↔
      isSeparator c = false := by
  fun_induction allFrom position cs generalizing tokens front with
  | case1 position => exact absurd hcs (by simp)
  | case2 position d cs hsep ih =>
      cases front with
      | nil =>
          obtain ⟨rfl, -⟩ := List.cons.inj hcs
          refine iff_of_false ?_ (by rw [hsep]; decide)
          rintro ⟨token, hmem, hle, -⟩
          have hpast := le_position_of_allFrom h hmem
          rw [byteLength_nil] at hle
          omega
      | cons first front =>
          obtain ⟨rfl, hrest⟩ := List.cons.inj hcs
          rw [byteLength_cons, utf8Size_of_isSeparator hsep, ← Nat.add_assoc]
          exact ih h hrest
  | case3 position d cs hsep cause hscan => cases h
  | case4 position d cs hsep s hscan error hmore ih => cases h
  | case5 position d cs hsep s hscan more hmore ih =>
      cases h
      have hword := (longest_of_scan hscan).1.isWord
      rw [← (scan_append hscan).1] at hcs
      rcases List.append_eq_append_iff.mp hcs with ⟨inside, rfl, hrest⟩ | ⟨last, hsource, hlast⟩
      · -- The character is behind the first token.
        rw [byteLength_append, ← Nat.add_assoc, ← ih hmore hrest]
        simp only [List.mem_cons, exists_eq_or_imp]
        refine or_iff_right fun hfirst => ?_
        have hlt := hfirst.2
        simp only [stop] at hlt
        omega
      · cases last with
        | nil =>
            -- It is the first one behind the first token.
            have hfirstBehind : s.rest = [] ++ c :: rest := hlast.symm
            rw [List.append_nil] at hsource
            rw [← hsource, ← ih hmore hfirstBehind]
            simp only [List.mem_cons, exists_eq_or_imp, byteLength_nil, Nat.add_zero]
            refine or_iff_right fun hfirst => ?_
            exact absurd hfirst.2 (Nat.lt_irrefl _)
        | cons first last =>
            obtain ⟨rfl, -⟩ := List.cons.inj hlast
            have hnot := hword.not_isSeparator_of_mem (c := c) (by rw [hsource]; simp)
            refine iff_of_true ⟨_, List.mem_cons_self .., ?_, ?_⟩ (Bool.eq_false_iff.mpr hnot)
            · exact Nat.le_add_right _ _
            · have hpos := byteLength_pos (List.cons_ne_nil c last)
              simp only [stop, hsource, byteLength_append]
              omega

/-! ### More separators -/

variable {gap : List Char}

theorem allFrom_append_of_separators (hgap : ∀ c ∈ gap, isSeparator c = true)
    (position : Nat) (cs : List Char) :
    allFrom position (gap ++ cs) = allFrom (position + byteLength gap) cs := by
  induction gap generalizing position with
  | nil => rfl
  | cons c gap ih =>
      obtain ⟨hc, hrest⟩ := List.forall_mem_cons.mp hgap
      rw [List.cons_append, allFrom, if_pos hc, ih hrest, byteLength_cons,
        utf8Size_of_isSeparator hc, Nat.add_assoc]

/-- Further on, the same text has the same tokens further on. -/
theorem allFrom_shift (h : allFrom position cs = .ok tokens) (n : Nat) :
    allFrom (position + n) cs = .ok (tokens.map (shift n)) := by
  fun_induction allFrom position cs generalizing tokens with
  | case1 position =>
      cases h
      rw [allFrom]
      rfl
  | case2 position c cs hsep ih =>
      rw [allFrom, if_pos hsep, Nat.add_right_comm]
      exact ih h
  | case3 position c cs hsep cause hscan => cases h
  | case4 position c cs hsep s hscan error hmore ih => cases h
  | case5 position c cs hsep s hscan more hmore ih =>
      cases h
      refine (allFrom_cons_eq_ok_iff hsep).mpr ⟨s, _, hscan, ?_, rfl⟩
      rw [Nat.add_right_comm]
      exact ih hmore

theorem allFrom_insert_front {back : List Char} {before after : List Token}
    (h : allFrom position back = .ok (before ++ after))
    (hbefore : ∀ token ∈ before, token.stop ≤ position)
    (hgap : ∀ c ∈ gap, isSeparator c = true) :
    allFrom position (gap ++ back) = .ok (before ++ after.map (shift (byteLength gap))) := by
  have hnil : before = [] := by
    refine List.eq_nil_iff_forall_not_mem.mpr fun token hmem => ?_
    have hmem' : token ∈ before ++ after := List.mem_append_left after hmem
    have hle := le_position_of_allFrom h hmem'
    have hlt := position_lt_stop_of_allFrom h hmem'
    have hstop := hbefore token hmem
    omega
  subst hnil
  rw [allFrom_append_of_separators hgap]
  exact allFrom_shift h _

/-- **Separators between two tokens move the tokens behind them**, and change nothing else. -/
theorem allFrom_insert {position : Nat} {front back : List Char} {before after : List Token}
    (h : allFrom position (front ++ back) = .ok (before ++ after))
    (hbefore : ∀ token ∈ before, token.stop ≤ position + byteLength front)
    (hafter : ∀ token ∈ after, position + byteLength front ≤ token.position)
    (hgap : ∀ c ∈ gap, isSeparator c = true) :
    allFrom position (front ++ (gap ++ back)) =
      .ok (before ++ after.map (shift (byteLength gap))) := by
  match front with
  | [] => exact allFrom_insert_front h hbefore hgap
  | c :: front =>
      by_cases hsep : isSeparator c = true
      · rw [byteLength_cons, utf8Size_of_isSeparator hsep, ← Nat.add_assoc] at hbefore hafter
        rw [List.cons_append, allFrom, if_pos hsep] at h ⊢
        exact allFrom_insert h hbefore hafter hgap
      rw [List.cons_append, allFrom_cons_eq_ok_iff hsep] at h
      obtain ⟨s, more, hscan, hmore, htokens⟩ := h
      cases before with
      | nil =>
          -- The first token starts too early to be behind the separators.
          have hle := hafter ⟨s.lexeme, s.source, position⟩ (by
            rw [← List.nil_append after, htokens]
            exact List.mem_cons_self ..)
          have hpos := byteLength_pos (List.cons_ne_nil c front)
          simp only at hle
          omega
      | cons token before =>
          obtain ⟨rfl, rfl⟩ := List.cons.inj htokens
          obtain ⟨hfirst, hothers⟩ := List.forall_mem_cons.mp hbefore
          obtain ⟨hlongest, hspells⟩ := longest_of_scan hscan
          obtain ⟨happend, hne⟩ := scan_append hscan
          obtain ⟨mid, hmid, hrest⟩ := exists_append_of_byteLength_le
            (happend.trans (List.cons_append ..).symm) (by simp only [stop] at hfirst; omega)
          have hlength : position + byteLength (c :: front) =
              position + byteLength s.source + byteLength mid := by
            rw [hmid, byteLength_append, Nat.add_assoc]
          rw [hlength] at hothers hafter
          have hsource : s.source ++ (mid ++ (gap ++ back)) = c :: (front ++ (gap ++ back)) := by
            rw [← List.append_assoc, ← hmid, List.cons_append]
          rw [← happend, hrest] at hlongest
          have hinserted := hlongest.insert hgap
          rw [hsource] at hinserted
          have hscanned := scan_of_longest hsource hinserted hspells
          rw [hrest] at hmore
          have hshorter : mid.length < (c :: front).length := by
            have hpos := List.length_pos_iff.mpr hne
            rw [hmid, List.length_append]
            omega
          exact (allFrom_cons_eq_ok_iff hsep).mpr
            ⟨_, _, hscanned, allFrom_insert hmore hothers hafter hgap, rfl⟩
termination_by front.length
decreasing_by
  · exact Nat.lt_succ_self front.length
  · exact hshorter

end Token

/-! ### Places further on -/

/-- Where a byte is when `n` bytes have been put in at some place. -/
def movedPlace (place n position : Nat) : Nat :=
  if place ≤ position then position + n else position

/-- The same error when `n` bytes have been put in at some place of the text. -/
def ParseError.moved (place n : Nat) (error : ParseError) : ParseError :=
  { error with position := movedPlace place n error.position }

/-- The same token when `n` bytes have been put in at some place of the text. -/
def Token.moved (place n : Nat) (token : Token) : Token :=
  { token with position := movedPlace place n token.position }

/-- The tokens behind the place are shifted, and those in front stay where they are. -/
theorem Token.map_moved {place : Nat} {before after : List Token}
    (hbefore : ∀ token ∈ before, token.position < place)
    (hafter : ∀ token ∈ after, place ≤ token.position) (n : Nat) :
    (before ++ after).map (moved place n) = before ++ after.map (shift n) := by
  have hfront : before.map (moved place n) = before.map id := by
    refine List.map_congr_left fun token hmem => ?_
    rw [moved, movedPlace, if_neg (Nat.not_le.mpr (hbefore token hmem))]
    rfl
  have hback : after.map (moved place n) = after.map (shift n) := by
    refine List.map_congr_left fun token hmem => ?_
    rw [moved, shift, movedPlace, if_pos (hafter token hmem)]
  rw [List.map_append, hfront, hback, List.map_id]

namespace Arithmetic

/-- Tokens that are moved are read as they are; an error among them moves with its token. -/
theorem Progress.readAll_moved (place n : Nat) (tokens : List Token) (progress : Progress) :
    progress.readAll (tokens.map (Token.moved place n)) =
      (progress.readAll tokens).mapError (ParseError.moved place n) := by
  induction tokens generalizing progress with
  | nil => rfl
  | cons token tokens ih =>
      rw [List.map_cons, readAll, readAll, next_eq, next_eq, Token.moved]
      cases progress.read token.lexeme with
      | ok next => exact ih next
      | error cause => rfl

/-- **An expression does not depend on the places of its tokens.** -/
theorem ofTokens_moved (place n length : Nat) (tokens : List Token) :
    ofTokens (movedPlace place n length) (tokens.map (Token.moved place n)) =
      (ofTokens length tokens).mapError (ParseError.moved place n) := by
  rw [ofTokens, ofTokens, Progress.readAll_moved]
  cases Progress.start.readAll tokens with
  | error refusal => rfl
  | ok progress =>
      simp only [Except.mapError]
      cases progress.finish <;> rfl

/-! ### Blind to spacing -/

/-- **The tokens of a text are all of it but its separators, and spacing does not matter.**  Each
token is the longest word at its place, they follow one another, and the characters that none of
them covers are the separators.  Whatever separators are put in between two tokens, or at an end
of the text, the tokens behind are as many bytes further on, and nothing else changes.  So the
text is the same expression, or the same error, which is further on if it is behind. -/
theorem tokens_lose_nothing_but_spacing {cs : List Char} {tokens : List Token}
    (h : Token.all cs = .ok tokens) :
    (∀ token ∈ tokens, ∃ front rest, cs = front ++ (token.source ++ rest) ∧
      token.position = byteLength front ∧ token.position < token.stop ∧
      IsLongest token.source (token.source ++ rest) ∧ Spells token.source token.lexeme) ∧
    (tokens.Pairwise fun one later => one.stop ≤ later.position) ∧
    (∀ front c rest, cs = front ++ c :: rest →
      ((∃ token ∈ tokens, token.Covers (byteLength front)) ↔ Token.isSeparator c = false)) ∧
    ∀ front back before after gap, cs = front ++ back → tokens = before ++ after →
      (∀ token ∈ before, token.stop ≤ byteLength front) →
      (∀ token ∈ after, byteLength front ≤ token.position) →
      (∀ c ∈ gap, Token.isSeparator c = true) →
      Token.all (front ++ (gap ++ back)) = .ok (before ++ after.map (Token.shift (byteLength gap))) ∧
      parse (front ++ (gap ++ back)) =
        (parse cs).mapError (ParseError.moved (byteLength front) (byteLength gap)) := by
  refine ⟨?_, Token.pairwise_of_allFrom h, ?_, ?_⟩
  · intro token hmem
    obtain ⟨front, rest, hcs, hposition, hword⟩ := Token.stands_of_allFrom h hmem
    rw [Nat.zero_add] at hposition
    exact ⟨front, rest, hcs, hposition, Token.position_lt_stop_of_allFrom h hmem, hword⟩
  · intro front c rest hcs
    have hiff := Token.exists_covers_iff h hcs
    rwa [Nat.zero_add] at hiff
  · rintro front back before after gap rfl rfl hbefore hafter hgap
    have hall : Token.all (front ++ (gap ++ back)) =
        .ok (before ++ after.map (Token.shift (byteLength gap))) :=
      Token.allFrom_insert h (by simpa using hbefore) (by simpa using hafter) hgap
    have hfront : ∀ token ∈ before, token.position < byteLength front := by
      intro token hmem
      have hlt := Token.position_lt_stop_of_allFrom h (List.mem_append_left after hmem)
      exact hlt.trans_le (hbefore token hmem)
    have hlength : byteLength (front ++ (gap ++ back)) =
        movedPlace (byteLength front) (byteLength gap) (byteLength (front ++ back)) := by
      rw [movedPlace, if_pos (by simp)]
      simp only [byteLength_append]
      omega
    refine ⟨hall, ?_⟩
    rw [parse, parse, hall, h, hlength, ← Token.map_moved hfront hafter]
    exact ofTokens_moved _ _ _ _

/-- No exponent comes about or is lost: the name behind the number is the error, with separators in
front of it or without. -/
theorem spacing_in_front_of_no_exponent :
    let one : Token := ⟨.number 1, ['1'], 0⟩
    let others : List Token := [⟨.identifier "e", ['e'], 1⟩, ⟨.operator .add, ['+'], 2⟩,
      ⟨.identifier "x", ['x'], 3⟩]
    Token.all "1e+x".toList = .ok (one :: others) ∧
      Token.all "1\t e+x".toList = .ok (one :: others.map (Token.shift 2)) ∧
      parse "1\t e+x".toList = .error ⟨.surplusLexeme (.identifier "e"), 3⟩ := by
  intro one others
  have hall : Token.all "1e+x".toList = .ok (one :: others) := by decide +kernel
  obtain ⟨-, -, -, hspacing⟩ := tokens_lose_nothing_but_spacing hall
  have hgap : ∀ c ∈ "\t ".toList, Token.isSeparator c = true := forall_mem_of_all (by decide)
  obtain ⟨htokens, hparse⟩ :=
    hspacing ['1'] "e+x".toList [one] others "\t ".toList rfl rfl (by decide) (by decide) hgap
  have herror : parse "1e+x".toList = .error ⟨.surplusLexeme (.identifier "e"), 1⟩ := by
    decide +kernel
  refine ⟨hall, htokens, ?_⟩
  rw [herror] at hparse
  exact hparse

end Arithmetic

end ChartScript
