/-
What arithmetic text is accepted, and as which expression.

The scanner cuts the text by maximal munch and the reader accepts the grammar, so a text is
accepted exactly if its longest words spell lexemes that derive an expression.  Both parts
are functions, so the expression is determined by the text: the cut is unique and the
grammar is not ambiguous.
-/
import ChartScript.Proofs.Arithmetic.Grammar
import ChartScript.Proofs.Arithmetic.Munch

namespace ChartScript

/-- There is one way to cut a text into longest words. -/
theorem Munches.unique {cs : List Char} {ls ms : List Lexeme} (h : Munches cs ls)
    (h' : Munches cs ms) : ls = ms := by
  obtain ⟨tokens, hall, rfl⟩ := (Token.all_eq_ok_iff cs ls).mpr h
  obtain ⟨tokens', hall', rfl⟩ := (Token.all_eq_ok_iff cs ms).mpr h'
  rw [hall] at hall'
  rw [Except.ok.inj hall']

namespace Arithmetic

/-- The grammar is not ambiguous. -/
theorem Derives.unique {ls : List Lexeme} {e e' : Arithmetic} (h : Derives .sum ls e)
    (h' : Derives .sum ls e') : e = e' := by
  obtain ⟨final, hread, hfinish⟩ := (finish_iff_derives ls e).mpr h
  obtain ⟨final', hread', hfinish'⟩ := (finish_iff_derives ls e').mpr h'
  rw [hread] at hread'
  rw [← Option.some.inj hread', hfinish] at hfinish'
  exact Except.ok.inj hfinish'

/-- A text is an expression if it is cut into lexemes that the grammar derives it from. -/
def Recognizes (cs : List Char) (e : Arithmetic) : Prop :=
  ∃ ls, Munches cs ls ∧ Derives .sum ls e

/-- **A text parses as an expression exactly if the grammar gives it that expression, and
then it gives it no other.** -/
theorem parse_eq_ok_iff_recognizes (cs : List Char) (e : Arithmetic) :
    (parse cs = .ok e ↔ Recognizes cs e) ∧
      ∀ e', Recognizes cs e → Recognizes cs e' → e' = e := by
  refine ⟨?_, ?_⟩
  · constructor
    · intro h
      rw [parse] at h
      cases hall : Token.all cs with
      | error error =>
          rw [hall] at h
          cases h
      | ok tokens =>
          rw [hall] at h
          exact ⟨_, (Token.all_eq_ok_iff cs _).mp ⟨tokens, hall, rfl⟩,
            (ofTokens_eq_ok_iff _ tokens e).mp h⟩
    · rintro ⟨ls, hmunch, hderives⟩
      obtain ⟨tokens, hall, rfl⟩ := (Token.all_eq_ok_iff cs ls).mpr hmunch
      rw [parse, hall]
      exact (ofTokens_eq_ok_iff _ tokens e).mpr hderives
  · rintro e' ⟨ls, hmunch, hderives⟩ ⟨ms, hmunch', hderives'⟩
    rw [hmunch'.unique hmunch] at hderives'
    exact hderives'.unique hderives

/-- A sign binds tighter than a product, and differences group to the left. -/
example : parse "a - -b*c - d".toList =
    .ok (.binary .sub
      (.binary .sub (.symbol "a") (.binary .mul (.neg (.symbol "b")) (.symbol "c")))
      (.symbol "d")) := by
  cbv

end Arithmetic

end ChartScript
