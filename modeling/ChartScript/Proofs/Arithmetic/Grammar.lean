/-
The reader of arithmetic accepts the grammar, and nothing else.

`Derives` is the grammar as a relation: it says which lexemes make which expression in which
category, with no reader in sight.  A repetition such as `product (('+' | '-') product)*` is
written as a rule whose left part is again a sum, so the grouping to the left is part of the
grammar and not of a remark about it.

One direction is an induction on the derivation: from wherever the reader may stand in front
of a category, it reads the category to its end and then holds the expression derived.

The other direction is an invariant.  Whatever the reader has read so far is cut, level by
level, into the left operand that each level holds for a sum, the one that it holds for a
product, the signs, and the parentheses between the levels; `Spans` says so, and each lexeme
that is read preserves it.
-/
import ChartScript.Arithmetic.Parse

namespace ChartScript

namespace Arithmetic

/-! ### The grammar -/

/-- The categories of the grammar. -/
inductive Category where
  | sum
  | product
  | signed
  | atom

/-- Some lexemes make an expression of a category. -/
inductive Derives : Category → List Lexeme → Arithmetic → Prop where
  | number (value : Float) : Derives .atom [.number value] (.number value)
  | symbol (name : String) : Derives .atom [.identifier name] (.symbol name)
  | enclosed {ls : List Lexeme} {e : Arithmetic} (inner : Derives .sum ls e) :
      Derives .atom (.openParen :: ls ++ [.closeParen]) e
  | unsigned {ls : List Lexeme} {e : Arithmetic} (operand : Derives .atom ls e) :
      Derives .signed ls e
  | plus {ls : List Lexeme} {e : Arithmetic} (operand : Derives .signed ls e) :
      Derives .signed (.operator .add :: ls) e
  | minus {ls : List Lexeme} {e : Arithmetic} (operand : Derives .signed ls e) :
      Derives .signed (.operator .sub :: ls) (.neg e)
  | factor {ls : List Lexeme} {e : Arithmetic} (operand : Derives .signed ls e) :
      Derives .product ls e
  | multiplied {ls rs : List Lexeme} {l r : Arithmetic} {operation : Operation}
      (left : Derives .product ls l) (kind : operation = .mul ∨ operation = .div)
      (right : Derives .signed rs r) :
      Derives .product (ls ++ .operator operation :: rs) (.binary operation l r)
  | summand {ls : List Lexeme} {e : Arithmetic} (operand : Derives .product ls e) :
      Derives .sum ls e
  | added {ls rs : List Lexeme} {l r : Arithmetic} {operation : Operation}
      (left : Derives .sum ls l) (kind : operation = .add ∨ operation = .sub)
      (right : Derives .product rs r) :
      Derives .sum (ls ++ .operator operation :: rs) (.binary operation l r)

/-! ### Reading lexemes -/

namespace Progress

/-- Read one lexeme. -/
def read : Progress → Lexeme → Except ParseError.Cause Progress
  | .operand level outer => readOperand level outer
  | .operator e level outer => readOperator e level outer

/-- Where the reader stands behind some lexemes, unless one of them is misplaced. -/
def after? (progress : Progress) : List Lexeme → Option Progress
  | [] => some progress
  | l :: ls =>
      match progress.read l with
      | .ok next => next.after? ls
      | .error _ => none

theorem after?_cons {progress next : Progress} {l : Lexeme} (h : progress.read l = .ok next)
    (ls : List Lexeme) : progress.after? (l :: ls) = next.after? ls := by
  rw [after?, h]

theorem after?_append (progress : Progress) (ls ms : List Lexeme) :
    progress.after? (ls ++ ms) = (progress.after? ls).bind fun next => next.after? ms := by
  induction ls generalizing progress with
  | nil => rfl
  | cons l ls ih =>
      simp only [List.cons_append, after?]
      cases progress.read l with
      | ok next => exact ih next
      | error cause => rfl

/-- The reader goes on behind a part that it has read. -/
theorem after?_append_of_eq {progress next : Progress} {ls : List Lexeme}
    (h : progress.after? ls = some next) (ms : List Lexeme) :
    progress.after? (ls ++ ms) = next.after? ms := by
  rw [after?_append, h, Option.bind_some]

/-- A token is read as its lexeme is; its place tells only where an error is. -/
theorem next_eq (progress : Progress) (token : Token) :
    progress.next token =
      match progress.read token.lexeme with
      | .ok next => .ok next
      | .error cause => .error ⟨cause, token.position⟩ := by
  cases progress <;> rfl

theorem readAll_eq_ok_iff (progress final : Progress) (tokens : List Token) :
    progress.readAll tokens = .ok final ↔
      progress.after? (tokens.map Token.lexeme) = some final := by
  induction tokens generalizing progress with
  | nil => simp [readAll, after?]
  | cons token tokens ih =>
      rw [readAll, next_eq, List.map_cons, after?]
      cases progress.read token.lexeme with
      | ok next => exact ih next
      | error cause => simp

end Progress

/-! ### What the grammar derives is read -/

/-- From wherever the reader may stand in front of a category, it reads the lexemes and then
holds the expression. -/
def Reads : Category → List Lexeme → Arithmetic → Prop
  | .atom, ls, e | .signed, ls, e =>
      ∀ level outer, (Progress.operand level outer).after? ls = some (.atom level outer e)
  | .product, ls, e =>
      ∀ sum outer, ∃ operand product,
        (Progress.operand ⟨sum, none, 0⟩ outer).after? ls =
          some (.operator operand ⟨sum, product, 0⟩ outer) ∧
        Level.join product operand = e
  | .sum, ls, e =>
      ∀ outer, ∃ operand level,
        (Progress.operand .empty outer).after? ls = some (.operator operand level outer) ∧
        level.signs = 0 ∧ level.closeSum operand = e

theorem Reads.enclosed {ls : List Lexeme} {e : Arithmetic} (h : Reads .sum ls e) :
    Reads .atom (.openParen :: ls ++ [.closeParen]) e := by
  intro level outer
  obtain ⟨operand, inside, hread, -, rfl⟩ := h (level :: outer)
  have hopen : (Progress.operand level outer).read .openParen =
      .ok (.operand .empty (level :: outer)) := rfl
  rw [List.cons_append, Progress.after?_cons hopen, Progress.after?_append_of_eq hread]
  rfl

theorem Reads.minus {ls : List Lexeme} {e : Arithmetic} (h : Reads .signed ls e) :
    Reads .signed (.operator .sub :: ls) (.neg e) := by
  intro level outer
  have hsign : (Progress.operand level outer).read (.operator .sub) =
      .ok (.operand { level with signs := level.signs + 1 } outer) := rfl
  rw [Progress.after?_cons hsign, h]
  rfl

theorem Reads.factor {ls : List Lexeme} {e : Arithmetic} (h : Reads .signed ls e) :
    Reads .product ls e :=
  fun sum outer => ⟨e, none, h ⟨sum, none, 0⟩ outer, rfl⟩

theorem Reads.multiplied {ls rs : List Lexeme} {l r : Arithmetic} {operation : Operation}
    (left : Reads .product ls l) (kind : operation = .mul ∨ operation = .div)
    (right : Reads .signed rs r) :
    Reads .product (ls ++ .operator operation :: rs) (.binary operation l r) := by
  intro sum outer
  obtain ⟨operand, product, hread, rfl⟩ := left sum outer
  have hnext : (Progress.operator operand ⟨sum, product, 0⟩ outer).read (.operator operation) =
      .ok (.operand ⟨sum, some (Level.join product operand, operation), 0⟩ outer) := by
    rcases kind with rfl | rfl <;> rfl
  refine ⟨r, some (Level.join product operand, operation), ?_, rfl⟩
  rw [Progress.after?_append_of_eq hread, Progress.after?_cons hnext, right]
  rfl

theorem Reads.summand {ls : List Lexeme} {e : Arithmetic} (h : Reads .product ls e) :
    Reads .sum ls e := by
  intro outer
  obtain ⟨operand, product, hread, rfl⟩ := h none outer
  exact ⟨operand, ⟨none, product, 0⟩, hread, rfl, rfl⟩

theorem Reads.added {ls rs : List Lexeme} {l r : Arithmetic} {operation : Operation}
    (left : Reads .sum ls l) (kind : operation = .add ∨ operation = .sub)
    (right : Reads .product rs r) :
    Reads .sum (ls ++ .operator operation :: rs) (.binary operation l r) := by
  intro outer
  obtain ⟨operand, level, hread, -, rfl⟩ := left outer
  have hnext : (Progress.operator operand level outer).read (.operator operation) =
      .ok (.operand ⟨some (level.closeSum operand, operation), none, 0⟩ outer) := by
    rcases kind with rfl | rfl <;> rfl
  obtain ⟨last, product, hlast, rfl⟩ := right (some (level.closeSum operand, operation)) outer
  refine ⟨last, ⟨some (level.closeSum operand, operation), product, 0⟩, ?_, rfl, rfl⟩
  rw [Progress.after?_append_of_eq hread, Progress.after?_cons hnext, hlast]

/-- **Whatever the grammar derives, the reader reads.** -/
theorem Derives.reads {category : Category} {ls : List Lexeme} {e : Arithmetic}
    (h : Derives category ls e) : Reads category ls e := by
  induction h with
  | number value => exact fun level outer => rfl
  | symbol name => exact fun level outer => rfl
  | enclosed _ ih => exact ih.enclosed
  | unsigned _ ih => exact ih
  | plus _ ih => exact ih
  | minus _ ih => exact ih.minus
  | factor _ ih => exact ih.factor
  | multiplied _ kind _ left right => exact left.multiplied kind right
  | summand _ ih => exact ih.summand
  | added _ kind _ left right => exact left.added kind right

/-! ### What is read is derived -/

/-- The operations that a category groups to the left. -/
def Category.Groups : Category → Operation → Prop
  | .sum, operation => operation = .add ∨ operation = .sub
  | .product, operation => operation = .mul ∨ operation = .div
  | .signed, _ | .atom, _ => False

/-- The lexemes that a left operand which waits was read from, its operation included. -/
def Waits (category : Category) : Option (Arithmetic × Operation) → List Lexeme → Prop
  | none, ls => ls = []
  | some (e, operation), ls =>
      ∃ left, Derives category left e ∧ category.Groups operation ∧
        ls = left ++ [.operator operation]

/-- Signs, of which so many are minus signs. -/
inductive Signs : Nat → List Lexeme → Prop where
  | none : Signs 0 []
  | plus {n : Nat} {ls : List Lexeme} (before : Signs n ls) : Signs n (ls ++ [.operator .add])
  | minus {n : Nat} {ls : List Lexeme} (before : Signs n ls) :
      Signs (n + 1) (ls ++ [.operator .sub])

/-- The lexemes that a level was read from: a sum and a product that wait, and signs. -/
def Level.Spans (level : Level) (ls : List Lexeme) : Prop :=
  ∃ sum product signs, ls = sum ++ (product ++ signs) ∧
    Waits .sum level.sum sum ∧ Waits .product level.product product ∧ Signs level.signs signs

/-- The lexemes that the levels around the innermost one were read from, each with the
parenthesis that ends it.  The innermost level is first in the list and last in the text. -/
inductive Encloses : List Level → List Lexeme → Prop where
  | nil : Encloses [] []
  | cons {below : Level} {others : List Level} {ls ms : List Lexeme}
      (outer : Encloses others ls) (inner : below.Spans ms) :
      Encloses (below :: others) (ls ++ (ms ++ [.openParen]))

/-- **What the reader has read, cut along its stack.** -/
inductive Progress.Spans : Progress → List Lexeme → Prop where
  | operand {level : Level} {outer : List Level} {ls ms : List Lexeme}
      (around : Encloses outer ls) (inside : level.Spans ms) :
      Spans (.operand level outer) (ls ++ ms)
  | operator {e : Arithmetic} {level : Level} {outer : List Level} {ls ms os : List Lexeme}
      (around : Encloses outer ls) (inside : level.Spans ms) (unsigned : level.signs = 0)
      (complete : Derives .signed os e) :
      Spans (.operator e level outer) (ls ++ (ms ++ os))

/-- Signs in front of an operand belong to it. -/
theorem Signs.derives {n : Nat} {ls : List Lexeme} (h : Signs n ls) {os : List Lexeme}
    {e : Arithmetic} (operand : Derives .signed os e) :
    Derives .signed (ls ++ os) (Level.negate n e) := by
  induction h generalizing os e with
  | none => exact operand
  | plus _ ih =>
      rw [List.append_assoc]
      exact ih operand.plus
  | minus _ ih =>
      rw [List.append_assoc]
      exact ih operand.minus

theorem Waits.product {ls os : List Lexeme} {waiting : Option (Arithmetic × Operation)}
    {e : Arithmetic} (h : Waits .product waiting ls) (operand : Derives .signed os e) :
    Derives .product (ls ++ os) (Level.join waiting e) := by
  cases waiting with
  | none =>
      rw [show ls = [] from h]
      exact operand.factor
  | some pair =>
      obtain ⟨left, hleft, kind, rfl⟩ := h
      rw [List.append_assoc]
      exact hleft.multiplied kind operand

theorem Waits.sum {ls os : List Lexeme} {waiting : Option (Arithmetic × Operation)}
    {e : Arithmetic} (h : Waits .sum waiting ls) (operand : Derives .product os e) :
    Derives .sum (ls ++ os) (Level.join waiting e) := by
  cases waiting with
  | none =>
      rw [show ls = [] from h]
      exact operand.summand
  | some pair =>
      obtain ⟨left, hleft, kind, rfl⟩ := h
      rw [List.append_assoc]
      exact hleft.added kind operand

namespace Level

variable {level : Level} {ls os : List Lexeme} {e : Arithmetic}

theorem spans_empty : empty.Spans [] :=
  ⟨[], [], [], rfl, rfl, rfl, .none⟩

theorem Spans.plus (h : level.Spans ls) : level.Spans (ls ++ [.operator .add]) := by
  obtain ⟨sum, product, signs, rfl, hsum, hproduct, hsigns⟩ := h
  exact ⟨sum, product, _, by simp, hsum, hproduct, hsigns.plus⟩

theorem Spans.minus (h : level.Spans ls) :
    Spans { level with signs := level.signs + 1 } (ls ++ [.operator .sub]) := by
  obtain ⟨sum, product, signs, rfl, hsum, hproduct, hsigns⟩ := h
  exact ⟨sum, product, _, by simp, hsum, hproduct, hsigns.minus⟩

/-- An operand takes the signs in front of it off the level. -/
theorem Spans.signed (h : level.Spans ls) (operand : Derives .signed os e) :
    ∃ ms vs, ls ++ os = ms ++ vs ∧ Spans { level with signs := 0 } ms ∧
      Derives .signed vs (negate level.signs e) := by
  obtain ⟨sum, product, signs, rfl, hsum, hproduct, hsigns⟩ := h
  refine ⟨sum ++ product, signs ++ os, by simp, ?_, hsigns.derives operand⟩
  exact ⟨sum, product, [], by simp, hsum, hproduct, .none⟩

/-- The product that an operand completes, behind the sum that waits for it. -/
theorem Spans.closeProduct (h : level.Spans ls) (unsigned : level.signs = 0)
    (operand : Derives .signed os e) :
    ∃ sum vs, ls ++ os = sum ++ vs ∧ Waits .sum level.sum sum ∧
      Derives .product vs (level.closeProduct e) := by
  obtain ⟨sum, product, signs, rfl, hsum, hproduct, hsigns⟩ := h
  rw [unsigned] at hsigns
  exact ⟨sum, product ++ (signs ++ os), by simp, hsum, hproduct.product (hsigns.derives operand)⟩

/-- The sum that an operand completes is all of the level. -/
theorem Spans.closeSum (h : level.Spans ls) (unsigned : level.signs = 0)
    (operand : Derives .signed os e) : Derives .sum (ls ++ os) (level.closeSum e) := by
  obtain ⟨sum, vs, heq, hsum, hproduct⟩ := h.closeProduct unsigned operand
  rw [heq]
  exact hsum.sum hproduct

end Level

namespace Progress

theorem spans_start : start.Spans [] := by
  show start.Spans ([] ++ [])
  exact .operand .nil Level.spans_empty

/-- An atom completes the operand that the level waits for. -/
theorem spans_atom {level : Level} {outer : List Level} {ls ms os : List Lexeme}
    {e : Arithmetic} (around : Encloses outer ls) (inside : level.Spans ms)
    (h : Derives .atom os e) : (atom level outer e).Spans (ls ++ (ms ++ os)) := by
  obtain ⟨vs, ws, heq, hlevel, hsigned⟩ := inside.signed h.unsigned
  rw [heq]
  exact .operator around hlevel rfl hsigned

theorem spans_readOperand {level : Level} {outer : List Level} {ls ms : List Lexeme}
    {l : Lexeme} {next : Progress} (around : Encloses outer ls) (inside : level.Spans ms)
    (h : readOperand level outer l = .ok next) : next.Spans (ls ++ (ms ++ [l])) := by
  cases l with
  | number value =>
      cases h
      exact spans_atom around inside (.number value)
  | identifier name =>
      cases h
      exact spans_atom around inside (.symbol name)
  | openParen =>
      cases h
      have hspans := Spans.operand (around.cons inside) Level.spans_empty
      rwa [List.append_nil] at hspans
  | closeParen => cases h
  | operator operation =>
      cases operation with
      | add =>
          cases h
          exact .operand around inside.plus
      | sub =>
          cases h
          exact .operand around inside.minus
      | mul => cases h
      | div => cases h

/-- The level that waits for the right operand of a product. -/
theorem spans_factor {e : Arithmetic} {level : Level} {outer : List Level}
    {ls ms os : List Lexeme} {operation : Operation} (around : Encloses outer ls)
    (inside : level.Spans ms) (unsigned : level.signs = 0) (complete : Derives .signed os e)
    (kind : Category.product.Groups operation) :
    (operand { level with product := some (level.closeProduct e, operation) } outer).Spans
      (ls ++ (ms ++ os ++ [.operator operation])) := by
  obtain ⟨sum, vs, heq, hsum, hproduct⟩ := inside.closeProduct unsigned complete
  have hsigns : Signs level.signs [] := by
    rw [unsigned]
    exact .none
  rw [heq]
  refine .operand around ⟨sum, vs ++ [.operator operation], [], by simp, hsum, ?_, hsigns⟩
  exact ⟨vs, hproduct, kind, rfl⟩

/-- The level that waits for the right operand of a sum. -/
theorem spans_summand {e : Arithmetic} {level : Level} {outer : List Level}
    {ls ms os : List Lexeme} {operation : Operation} (around : Encloses outer ls)
    (inside : level.Spans ms) (unsigned : level.signs = 0) (complete : Derives .signed os e)
    (kind : Category.sum.Groups operation) :
    (operand ⟨some (level.closeSum e, operation), none, 0⟩ outer).Spans
      (ls ++ (ms ++ os ++ [.operator operation])) := by
  refine .operand around ⟨ms ++ os ++ [.operator operation], [], [], by simp, ?_, rfl, .none⟩
  exact ⟨ms ++ os, inside.closeSum unsigned complete, kind, rfl⟩

/-- A parenthesis that closes makes an atom of the level inside it. -/
theorem spans_close {e : Arithmetic} {level below : Level} {others : List Level}
    {ls ms os : List Lexeme} (around : Encloses (below :: others) ls)
    (inside : level.Spans ms) (unsigned : level.signs = 0) (complete : Derives .signed os e) :
    (atom below others (level.closeSum e)).Spans (ls ++ (ms ++ os ++ [.closeParen])) := by
  cases around with
  | cons outer inner =>
      have hatom := (inside.closeSum unsigned complete).enclosed
      have hspans := spans_atom outer inner hatom
      simpa only [List.append_assoc, List.cons_append, List.nil_append] using hspans

theorem spans_readOperator {e : Arithmetic} {level : Level} {outer : List Level}
    {ls ms os : List Lexeme} {l : Lexeme} {next : Progress} (around : Encloses outer ls)
    (inside : level.Spans ms) (unsigned : level.signs = 0) (complete : Derives .signed os e)
    (h : readOperator e level outer l = .ok next) : next.Spans (ls ++ (ms ++ os ++ [l])) := by
  cases l with
  | number value => cases h
  | identifier name => cases h
  | openParen => cases h
  | closeParen =>
      cases outer with
      | nil => cases h
      | cons below others =>
          cases h
          exact spans_close around inside unsigned complete
  | operator operation =>
      cases operation with
      | add =>
          cases h
          exact spans_summand around inside unsigned complete (.inl rfl)
      | sub =>
          cases h
          exact spans_summand around inside unsigned complete (.inr rfl)
      | mul =>
          cases h
          exact spans_factor around inside unsigned complete (.inl rfl)
      | div =>
          cases h
          exact spans_factor around inside unsigned complete (.inr rfl)

/-- **A lexeme that is read joins what the stack holds.** -/
theorem spans_read {progress next : Progress} {ls : List Lexeme} {l : Lexeme}
    (hs : progress.Spans ls) (h : progress.read l = .ok next) : next.Spans (ls ++ [l]) := by
  cases hs with
  | operand around inside =>
      rw [List.append_assoc]
      exact spans_readOperand around inside h
  | operator around inside unsigned complete =>
      rw [List.append_assoc]
      exact spans_readOperator around inside unsigned complete h

theorem spans_after? {progress final : Progress} {ls ms : List Lexeme}
    (hs : progress.Spans ls) (h : progress.after? ms = some final) : final.Spans (ls ++ ms) := by
  induction ms generalizing progress ls with
  | nil =>
      cases h
      rwa [List.append_nil]
  | cons l ms ih =>
      rw [after?] at h
      cases hr : progress.read l with
      | ok next =>
          rw [hr] at h
          have hspans := ih (spans_read hs hr) h
          rwa [List.append_assoc] at hspans
      | error cause =>
          rw [hr] at h
          cases h

/-- A reader that may stop has read a sum. -/
theorem derives_of_finish {progress : Progress} {ls : List Lexeme} {e : Arithmetic}
    (hs : progress.Spans ls) (h : progress.finish = .ok e) : Derives .sum ls e := by
  cases hs with
  | operand around inside => cases h
  | operator around inside unsigned complete =>
      cases around with
      | nil =>
          cases h
          exact inside.closeSum unsigned complete
      | cons outer inner => cases h

end Progress

/-! ### Acceptance -/

/-- **The reader stops with an expression exactly if the grammar derives it as a sum.** -/
theorem finish_iff_derives (ls : List Lexeme) (e : Arithmetic) :
    (∃ final, Progress.start.after? ls = some final ∧ final.finish = .ok e) ↔
      Derives .sum ls e := by
  constructor
  · rintro ⟨final, hread, hfinish⟩
    exact Progress.derives_of_finish (Progress.spans_after? Progress.spans_start hread) hfinish
  · intro h
    obtain ⟨operand, level, hread, -, rfl⟩ := h.reads []
    exact ⟨_, hread, rfl⟩

theorem ofTokens_eq_ok_iff (length : Nat) (tokens : List Token) (e : Arithmetic) :
    ofTokens length tokens = .ok e ↔ Derives .sum (tokens.map Token.lexeme) e := by
  rw [← finish_iff_derives, ofTokens]
  cases hr : Progress.start.readAll tokens with
  | ok final =>
      have hread := (Progress.readAll_eq_ok_iff _ _ _).mp hr
      simp only [hread, Option.some.injEq, exists_eq_left']
      cases final.finish <;> simp
  | error error =>
      have hread (final : Progress) :
          Progress.start.after? (tokens.map Token.lexeme) ≠ some final := by
        intro h
        rw [(Progress.readAll_eq_ok_iff _ _ _).mpr h] at hr
        cases hr
      simp [hread]

end Arithmetic

end ChartScript
