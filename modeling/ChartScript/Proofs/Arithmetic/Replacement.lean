/-
Replacing a name in arithmetic text.

`replaceText` writes a text in parentheses in place of every occurrence of a name in another
text.  What the name is in the expression of the one text, the expression of the other is in
the result: `parse_replaceText` says that the text that results is the expression with the
name replaced.

The parentheses do two things.  No word but a parenthesis has one in it, so no word in front
of the new text or at its end becomes longer, and the words around it stay as they are.  And
the lexemes between them are an atom of the grammar, whatever stands beside it.
-/
import ChartScript.Proofs.Arithmetic.Grammar
import ChartScript.Proofs.Arithmetic.Munch
import ChartScript.Proofs.Arithmetic.Substitution

namespace ChartScript

open Text

/-! ### Words beside symbols -/

/-- A symbol that is part of no longer word.  The signs are not among these, since a sign can
stand in an exponent. -/
def IsBreak (c : Char) : Prop :=
  IsSymbol c ∧ c ≠ '+' ∧ c ≠ '-'

theorem isBreak_openParen : IsBreak '(' :=
  ⟨Or.inl rfl, by decide, by decide⟩

theorem isBreak_closeParen : IsBreak ')' :=
  ⟨Or.inr (Or.inl rfl), by decide, by decide⟩

theorem isBreak_div : IsBreak '/' :=
  ⟨Or.inr (Or.inr ⟨.div, rfl⟩), by decide, by decide⟩

/-- A symbol goes on with no identifier and no digits, and no exponent starts with it. -/
theorem IsSymbol.apart_inside {c : Char} (h : IsSymbol c) :
    ¬isIdentifierRest c = true ∧ ¬c.isDigit = true ∧ c ≠ 'e' ∧ c ≠ 'E' := by
  rcases h with rfl | rfl | ⟨operation, rfl⟩
  · decide
  · decide
  · cases operation <;> decide

theorem IsExponent.not_mem_of_isBreak {exponent : List Char} (h : IsExponent exponent)
    {c : Char} (hc : IsBreak c) : c ∉ exponent := by
  obtain ⟨hsymbol, hplus, hminus⟩ := hc
  obtain ⟨-, hdigit, hsmall, hlarge⟩ := hsymbol.apart_inside
  cases h with
  | none => exact List.not_mem_nil
  | digits isLetter isSign _ all =>
      intro hmem
      rcases List.mem_cons.mp hmem with hletter | hmem
      · rcases isLetter with h | h
        · exact hsmall (hletter.trans h)
        · exact hlarge (hletter.trans h)
      · rcases List.mem_append.mp hmem with hsign | hdigits
        · rcases isSign with rfl | rfl | rfl
          · exact List.not_mem_nil hsign
          · exact hplus (List.mem_singleton.mp hsign)
          · exact hminus (List.mem_singleton.mp hsign)
        · exact hdigit (all c hdigits)

/-- A word with such a symbol in it has one character. -/
theorem IsWord.length_of_mem {word : List Char} (h : IsWord word) {c : Char} (hc : IsBreak c)
    (hmem : c ∈ word) : word.length = 1 := by
  cases h with
  | operator operation => rfl
  | openParen => rfl
  | closeParen => rfl
  | identifier h =>
      exfalso
      cases word with
      | nil => exact List.not_mem_nil hmem
      | cons first rest =>
          obtain ⟨hstart, hrest⟩ := Bool.and_eq_true_iff.mp h
          rcases List.mem_cons.mp hmem with rfl | hmem
          · exact hc.1.not_isIdentifierStart hstart
          · exact hc.1.apart_inside.1 (List.all_eq_true.mp hrest c hmem)
  | number h =>
      exfalso
      rcases List.mem_append.mp hmem with hmantissa | hexponent
      · exact hc.1.not_isNumeral (h.numeral c hmantissa)
      · exact h.exponent.not_mem_of_isBreak hc hexponent

/-- A text is the same as another one, or it goes on with such a symbol where it leaves the
other. -/
def Branches (cs ds : List Char) : Prop :=
  ds = cs ∨ ∃ common before c after, IsBreak c ∧ cs = common ++ before ∧ ds = common ++ c :: after

theorem Branches.append_left {cs ds : List Char} (h : Branches cs ds) (word : List Char) :
    Branches (word ++ cs) (word ++ ds) := by
  rcases h with rfl | ⟨common, before, c, after, hc, rfl, rfl⟩
  · exact Or.inl rfl
  · exact Or.inr ⟨word ++ common, before, c, after, hc, by simp, by simp⟩

/-- A longest word is still the longest in front of a text that branches off. -/
theorem IsLongest.of_branches {word cs ds : List Char} (h : IsLongest word (word ++ cs))
    (hbranches : Branches cs ds) : IsLongest word (word ++ ds) := by
  rcases hbranches with rfl | ⟨common, before, c, after, hc, rfl, rfl⟩
  · exact h
  · exact h.of_fork fun other hother hmem => hother.length_of_mem hc hmem

/-- A text that is cut into words is cut into the same words in front of such a symbol. -/
theorem Munches.append {cs ds : List Char} {ls ms : List Lexeme} {c : Char}
    (h : Munches cs ls) (hc : IsBreak c) (hmore : Munches (c :: ds) ms) :
    Munches (cs ++ c :: ds) (ls ++ ms) := by
  induction h with
  | nil => exact hmore
  | separator hsep _ ih => exact .separator hsep ih
  | @word word rest l ls longest spelling _ ih =>
      rw [List.append_assoc, List.cons_append]
      refine .word (longest.of_branches ?_) spelling ih
      exact Or.inr ⟨rest, [], c, ds, hc, by simp, rfl⟩

namespace Arithmetic

/-! ### Texts -/

/-- A text with another one, in parentheses, in place of every occurrence of a name.  A
character that no token starts with ends the replacement. -/
def replaceText (name : String) (inner : List Char) : List Char → List Char
  | [] => []
  | c :: cs =>
      if Token.isSeparator c then c :: replaceText name inner cs
      else
        match _h : Token.scan c cs with
        | .error _ => c :: cs
        | .ok s =>
            if s.lexeme = .identifier name then
              '(' :: (inner ++ ')' :: replaceText name inner s.rest)
            else s.source ++ replaceText name inner s.rest
termination_by cs => cs.length
decreasing_by
  · simp
  · exact Token.scan_length _h
  · exact Token.scan_length _h

/-- Where the text leaves the one with the name in it, it goes on with a parenthesis. -/
theorem branches_replaceText (name : String) (inner cs : List Char) :
    Branches cs (replaceText name inner cs) := by
  fun_induction replaceText name inner cs with
  | case1 => exact Or.inl rfl
  | case2 c cs hsep ih => exact ih.append_left [c]
  | case3 c cs hsep cause hscan => exact Or.inl rfl
  | case4 c cs hsep s hscan hname ih =>
      exact Or.inr ⟨[], c :: cs, '(', _, isBreak_openParen, rfl, rfl⟩
  | case5 c cs hsep s hscan hname ih =>
      have happend := (Token.scan_append hscan).1
      rw [← happend]
      exact ih.append_left s.source

/-- The text ends as the one with the name in it does, or with a parenthesis. -/
theorem getLast?_replaceText (name : String) (inner cs : List Char) :
    (replaceText name inner cs).getLast? = cs.getLast? ∨
      (replaceText name inner cs).getLast? = some ')' := by
  fun_induction replaceText name inner cs with
  | case1 => exact Or.inl rfl
  | case2 c cs hsep ih =>
      rw [List.getLast?_cons, List.getLast?_cons]
      rcases ih with hsame | hparen
      · exact Or.inl (by rw [hsame])
      · exact Or.inr (by rw [hparen]; rfl)
  | case3 c cs hsep cause hscan => exact Or.inl rfl
  | case4 c cs hsep s hscan hname ih =>
      have hlast : ('(' :: (inner ++ ')' :: replaceText name inner s.rest)).getLast? =
          some ((replaceText name inner s.rest).getLast?.getD ')') := by
        rw [← List.cons_append, List.getLast?_append, List.getLast?_cons]
        rfl
      rw [hlast, ← (Token.scan_append hscan).1, List.getLast?_append]
      rcases ih with hsame | hparen
      · rw [hsame]
        cases s.rest.getLast? with
        | none => exact Or.inr rfl
        | some d => exact Or.inl rfl
      · exact Or.inr (by rw [hparen]; rfl)
  | case5 c cs hsep s hscan hname ih =>
      rw [← (Token.scan_append hscan).1, List.getLast?_append, List.getLast?_append]
      rcases ih with hsame | hparen
      · exact Or.inl (by rw [hsame])
      · exact Or.inr (by rw [hparen]; rfl)

/-- What holds of all characters of both texts, and of parentheses, holds of all characters
of the result. -/
theorem forall_mem_replaceText (name : String) {inner cs : List Char} {P : Char → Prop}
    (hopen : P '(') (hclose : P ')') (hinner : ∀ c ∈ inner, P c) (h : ∀ c ∈ cs, P c) :
    ∀ c ∈ replaceText name inner cs, P c := by
  fun_induction replaceText name inner cs with
  | case1 => exact h
  | case2 c cs hsep ih =>
      obtain ⟨hc, hcs⟩ := List.forall_mem_cons.mp h
      exact List.forall_mem_cons.mpr ⟨hc, ih hcs⟩
  | case3 c cs hsep cause hscan => exact h
  | case4 c cs hsep s hscan hname ih =>
      rw [← (Token.scan_append hscan).1] at h
      have hrest := ih (List.forall_mem_append.mp h).2
      refine List.forall_mem_cons.mpr ⟨hopen, List.forall_mem_append.mpr ⟨hinner, ?_⟩⟩
      exact List.forall_mem_cons.mpr ⟨hclose, hrest⟩
  | case5 c cs hsep s hscan hname ih =>
      rw [← (Token.scan_append hscan).1] at h
      obtain ⟨hsource, hrest⟩ := List.forall_mem_append.mp h
      exact List.forall_mem_append.mpr ⟨hsource, ih hrest⟩

/-- The lexemes that stand for a lexeme after the replacement. -/
def replaceLexeme (name : String) (inner : List Lexeme) (l : Lexeme) : List Lexeme :=
  if l = .identifier name then .openParen :: inner ++ [.closeParen] else [l]

/-- **Replacing a name in a text replaces its lexemes.** -/
theorem munches_replaceText (name : String) {inner cs : List Char} {ls is : List Lexeme}
    (hinner : Munches inner is) (h : Munches cs ls) :
    Munches (replaceText name inner cs) (ls.flatMap (replaceLexeme name is)) := by
  induction h with
  | nil =>
      rw [replaceText]
      exact .nil
  | @separator c cs ls hsep _ ih =>
      rw [replaceText, if_pos hsep]
      exact .separator hsep ih
  | @word word rest l ls longest spelling _ ih =>
      obtain ⟨c, others, rfl⟩ := List.exists_cons_of_ne_nil longest.isWord.ne_nil
      have hsep := Token.not_isSeparator_of_isWord longest.isWord
      have hscan : Token.scan c (others ++ rest) = .ok ⟨l, c :: others, rest⟩ :=
        Token.scan_of_longest rfl longest spelling
      have hreplaced : replaceText name inner (c :: (others ++ rest)) =
          if l = .identifier name then '(' :: (inner ++ ')' :: replaceText name inner rest)
          else c :: others ++ replaceText name inner rest := by
        rw [replaceText, if_neg hsep]
        split
        · rename_i cause hfail
          rw [hscan] at hfail
          cases hfail
        · rename_i s hok
          rw [hscan] at hok
          cases hok
          rfl
      rw [List.cons_append, hreplaced, List.flatMap_cons, replaceLexeme]
      by_cases hname : l = .identifier name
      · rw [if_pos hname, if_pos hname]
        have hclose : Munches (')' :: replaceText name inner rest)
            (.closeParen :: ls.flatMap (replaceLexeme name is)) :=
          .word (isLongest_symbol isBreak_closeParen.1 _) .closeParen ih
        have hbody := hinner.append isBreak_closeParen hclose
        have hopen := Munches.word (isLongest_symbol isBreak_openParen.1 _) .openParen hbody
        simpa using hopen
      · rw [if_neg hname, if_neg hname]
        exact .word (longest.of_branches (branches_replaceText name inner rest)) spelling ih

/-! ### Expressions -/

/-- **What the grammar derives from the lexemes after the replacement is the expression after
the replacement.** -/
theorem Derives.replace {category : Category} {ls is : List Lexeme} {e i : Arithmetic}
    (h : Derives category ls e) (hinner : Derives .sum is i) (name : String) :
    Derives category (ls.flatMap (replaceLexeme name is)) (e.replace name i) := by
  induction h with
  | number value => exact .number value
  | symbol other =>
      rw [List.flatMap_singleton, replaceLexeme, Arithmetic.replace]
      by_cases hname : other = name
      · rw [if_pos (congrArg Lexeme.identifier hname), if_pos hname]
        exact .enclosed hinner
      · rw [if_neg (fun heq => hname (Lexeme.identifier.inj heq)), if_neg hname]
        exact .symbol other
  | @enclosed ls e _ ih =>
      rw [List.flatMap_append]
      exact .enclosed ih
  | unsigned _ ih => exact .unsigned ih
  | plus _ ih => exact .plus ih
  | minus _ ih => exact .minus ih
  | factor _ ih => exact .factor ih
  | multiplied _ kind _ left right =>
      rw [List.flatMap_append]
      exact .multiplied left kind right
  | summand _ ih => exact .summand ih
  | added _ kind _ left right =>
      rw [List.flatMap_append]
      exact .added left kind right

/-- A text is the expression that its tokens derive. -/
theorem parse_eq_ok_iff (cs : List Char) (e : Arithmetic) :
    parse cs = .ok e ↔ ∃ tokens, Token.all cs = .ok tokens ∧
      Derives .sum (tokens.map Token.lexeme) e := by
  rw [parse]
  cases Token.all cs with
  | error error => simp
  | ok tokens => simp [ofTokens_eq_ok_iff]

/-- **Replacing a name in a text and reading it is reading it and replacing the name.** -/
theorem parse_replaceText {inner cs : List Char} {i e : Arithmetic} (hinner : parse inner = .ok i)
    (h : parse cs = .ok e) (name : String) :
    parse (replaceText name inner cs) = .ok (e.replace name i) := by
  obtain ⟨innerTokens, hinnerAll, hinnerDerives⟩ := (parse_eq_ok_iff inner i).mp hinner
  obtain ⟨tokens, hall, hderives⟩ := (parse_eq_ok_iff cs e).mp h
  have hmunches := munches_replaceText name (Token.munches_of_allFrom hinnerAll)
    (Token.munches_of_allFrom hall)
  obtain ⟨replaced, hreplaced, hlexemes⟩ := (Token.all_eq_ok_iff _ _).mpr hmunches
  refine (parse_eq_ok_iff _ _).mpr ⟨replaced, hreplaced, ?_⟩
  rw [hlexemes]
  exact hderives.replace hinnerDerives name

/-- An exponent is no name. -/
example : replaceText "e5" "a - b".toList "1e5 - e5".toList = "1e5 - (a - b)".toList := by
  decide +kernel

end Arithmetic

end ChartScript
