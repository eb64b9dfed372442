/-
Texts of JSON values, however they are written.

A text of a value has the tokens of the value one after the other, with any blanks between
them.  Numbers may be written with any literal of their numeral; strings are written with the
escapes that this program writes.  The reader takes every such text for the value:
`parse?_of_isText`.
-/
import ChartScript.Proofs.Json.Literal
import ChartScript.Proofs.Json.Reading

namespace ChartScript.Json

namespace Token

/-- A text that has some tokens, with blanks anywhere around them. -/
inductive IsText : List Token → List Char → Prop where
  | none : IsText [] []
  | blank {c : Char} {tokens : List Token} {cs : List Char} (isBlank : isBlank c = true)
      (rest : IsText tokens cs) : IsText tokens (c :: cs)
  | mark {c : Char} {token : Token} {tokens : List Token} {cs : List Char}
      (isMark : mark? c = some token) (rest : IsText tokens cs) :
      IsText (token :: tokens) (c :: cs)
  | word {cs : List Char} {token : Token} {tokens : List Token} (word : List Char)
      (isWord : word? word = some token) (ends : Delimits cs) (rest : IsText tokens cs) :
      IsText (token :: tokens) (word ++ cs)
  | number {tokens : List Token} {cs : List Char} (literal : Literal) (ends : Delimits cs)
      (rest : IsText tokens cs) : IsText (.number literal.numeral :: tokens) (literal.text ++ cs)
  | text {tokens : List Token} {cs : List Char} (s : String) (rest : IsText tokens cs) :
      IsText (.text (some s) :: tokens) (quoted (some s) ++ cs)

theorem mem_of_mark? {c : Char} {token : Token} (h : mark? c = some token) :
    c ∈ ['[', ']', '\x7b', '\x7d', ',', ':'] := by
  by_cases hc : c ∈ ['[', ']', '\x7b', '\x7d', ',', ':']
  · exact hc
  · simp only [List.mem_cons, List.not_mem_nil, or_false, not_or] at hc
    simp [mark?, hc] at h

/-- A mark is no blank. -/
theorem isBlank_of_mark? {c : Char} {token : Token} (h : mark? c = some token) :
    isBlank c = false := by
  have hc := mem_of_mark? h
  simp only [List.mem_cons, List.not_mem_nil, or_false] at hc
  rcases hc with rfl | rfl | rfl | rfl | rfl | rfl <;> rfl

/-- Any token ends where a mark stands. -/
theorem delimits_mark {c : Char} {token : Token} (h : mark? c = some token) (cs : List Char) :
    Delimits (c :: cs) := by
  have hc := mem_of_mark? h
  simp only [List.mem_cons, List.not_mem_nil, or_false] at hc
  rcases hc with rfl | rfl | rfl | rfl | rfl | rfl <;>
    exact delimits_cons (by decide) (by decide) (by decide) cs

theorem scans_of_word? {word : List Char} {token : Token} (h : word? word = some token) :
    Scans word [token] := by
  unfold word? at h
  split at h
  · rename_i hnull
    cases h
    rw [beq_iff_eq.mp hnull]
    exact scans_word (by decide) (by decide) (by decide) (by decide)
  split at h
  · rename_i htrue
    cases h
    rw [beq_iff_eq.mp htrue]
    exact scans_word (by decide) (by decide) (by decide) (by decide)
  split at h
  · rename_i hfalse
    cases h
    rw [beq_iff_eq.mp hfalse]
    exact scans_word (by decide) (by decide) (by decide) (by decide)
  · cases h

/-- Where a token can end it can also end with something behind the text. -/
theorem delimits_append {cs rest : List Char} (hcs : Delimits cs) (hrest : Delimits rest) :
    Delimits (cs ++ rest) := by
  cases cs with
  | nil => exact hrest
  | cons c cs =>
      intro d hd
      exact hcs d hd

theorem IsText.scans {tokens : List Token} {cs : List Char} (h : IsText tokens cs) :
    Scans cs tokens := by
  induction h with
  | none => exact scans_nil
  | @blank c _ _ hblank _ ih =>
      have hblanks : ∀ d ∈ [c], isBlank d = true := by simpa using hblank
      exact scans_blanks hblanks ih
  | mark hmark _ ih => exact scans_mark hmark (isBlank_of_mark? hmark) ih
  | word word hword ends _ ih =>
      exact (scans_of_word? hword).append ih fun _ hrest => delimits_append ends hrest
  | number literal ends _ ih =>
      exact literal.scans.append ih fun _ hrest => delimits_append ends hrest
  | text s _ ih => exact scans_quoted s ih

end Token

/-- A text of a value. -/
def IsText (value : Json) (cs : List Char) : Prop :=
  Token.IsText value.tokens cs

/-- **Every text of a value is read as that value.** -/
theorem parse?_of_isText {value : Json} {cs : List Char} (h : value.IsText cs) :
    parse? cs = some value := by
  have hall : Token.all? cs = some value.tokens := by
    have hscans := Token.IsText.scans h [] [] Token.delimits_nil (by rw [Token.all?])
    rwa [List.append_nil, List.append_nil] at hscans
  rw [parse?, hall]
  exact ofTokens?_tokens value

end ChartScript.Json
