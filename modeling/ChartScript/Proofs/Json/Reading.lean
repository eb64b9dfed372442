/-
Values read from their tokens.

The reader keeps the lists and objects that are open on a stack.  Behind the tokens of a
value it stands where it stood in front of them, with the value complete;
`readAll_tokens` shows this by induction over the value, for every stack.  With the scanner
this makes a round trip: a written text is read as the value it was written for.
-/
import ChartScript.Json.Parse
import ChartScript.Proofs.Json.Scanning

namespace ChartScript.Json

namespace Progress

/-- Where a list has just been opened, its first item is read as any value is. -/
theorem readAll_openedList (stack : List Frame) (value : Json) (rest : List Token) :
    (Progress.openedList stack).readAll (value.tokens ++ rest) =
      (Progress.needsValue (.list [] :: stack)).readAll (value.tokens ++ rest) := by
  match value with
  | .null | .bool _ | .number _ | .text _ => rfl
  | .list [] | .list (_ :: _) => rfl
  | .object [] | .object (_ :: _) => rfl

mutual

/-- **The tokens of a value lead to the complete value.** -/
theorem readAll_tokens : ∀ (value : Json) (stack : List Frame) (rest : List Token),
    (Progress.needsValue stack).readAll (value.tokens ++ rest) =
      (Progress.complete value stack).readAll rest
  | .null, _, _ => rfl
  | .bool _, _, _ => rfl
  | .number _, _, _ => rfl
  | .text _, _, _ => rfl
  | .list [], _, _ => rfl
  | .list (item :: items), stack, rest => by
      show (Progress.openedList stack).readAll
        (item.tokens ++ itemTokens items ++ [.closeList] ++ rest) = _
      rw [List.append_assoc, List.append_assoc, readAll_openedList, readAll_tokens,
        List.singleton_append, readAll_itemTokens]
      rfl
  | .object [], _, _ => rfl
  | .object ((key, value) :: members), stack, rest => by
      show (Progress.needsValue (.member [] key :: stack)).readAll
        (value.tokens ++ memberTokens members ++ [.closeObject] ++ rest) = _
      rw [List.append_assoc, List.append_assoc, readAll_tokens, List.singleton_append,
        readAll_memberTokens]
      rfl

theorem readAll_itemTokens : ∀ (items : List Json) (value : Json) (before : List Json)
    (stack : List Frame) (rest : List Token),
    (Progress.complete value (.list before :: stack)).readAll
        (itemTokens items ++ .closeList :: rest) =
      (Progress.complete (.list (before.reverse ++ value :: items)) stack).readAll rest
  | [], value, before, stack, rest => by
      show (Progress.complete (.list (value :: before).reverse) stack).readAll rest = _
      rw [List.reverse_cons]
  | item :: items, value, before, stack, rest => by
      show (Progress.needsValue (.list (value :: before) :: stack)).readAll
        (item.tokens ++ itemTokens items ++ .closeList :: rest) = _
      rw [List.append_assoc, readAll_tokens, readAll_itemTokens, List.reverse_cons,
        List.append_assoc]
      rfl

theorem readAll_memberTokens : ∀ (members : List (Option String × Json)) (key : Option String)
    (value : Json) (before : List (Option String × Json)) (stack : List Frame)
    (rest : List Token),
    (Progress.complete value (.member before key :: stack)).readAll
        (memberTokens members ++ .closeObject :: rest) =
      (Progress.complete (.object (before.reverse ++ (key, value) :: members)) stack).readAll rest
  | [], key, value, before, stack, rest => by
      show (Progress.complete (.object ((key, value) :: before).reverse) stack).readAll rest = _
      rw [List.reverse_cons]
  | (nextKey, next) :: members, key, value, before, stack, rest => by
      show (Progress.needsValue (.member ((key, value) :: before) nextKey :: stack)).readAll
        (next.tokens ++ memberTokens members ++ .closeObject :: rest) = _
      rw [List.append_assoc, readAll_tokens, readAll_memberTokens, List.reverse_cons,
        List.append_assoc]
      rfl

end

end Progress

theorem ofTokens?_tokens (value : Json) : ofTokens? value.tokens = some value := by
  have hread := Progress.readAll_tokens value [] []
  rw [List.append_nil] at hread
  simp only [ofTokens?, hread, Progress.readAll]

/-- **A written text is read as its value**, written either way and with blanks behind it. -/
theorem parse?_write {value : Json} (h : value.IsWritable) (pretty : Bool) {blanks : List Char}
    (hblanks : ∀ c ∈ blanks, Token.isBlank c = true) :
    parse? (write pretty value ++ blanks) = some value := by
  unfold parse?
  rw [Token.all?_write h pretty hblanks]
  exact ofTokens?_tokens value

end ChartScript.Json
