/-
Reading an indicator call by offsets.

The reader keeps the text of the call and cuts the argument list out of it.  It does not count how
far it has come but how much is left: where the list opens, and where surplus text starts, it knows
from the length of what it has trimmed.  What is trimmed off is in front of what is left, so none of
these differences is below zero, and each is a boundary.
-/
import ChartScript.Indicator.Call
import ChartScript.Proofs.Arguments.Cutting
import ChartScript.Proofs.Arguments.Offset

namespace ChartScript

open Text

namespace Indicator

/-- Read the argument list of a call, whose name ends at an offset of its text. -/
def readArgumentsAt? (kind : Kind) (text : List Char) (nameEnd : Nat) :
    Option (Except ScriptFault Indicator) := do
  let rest ← from? text nameEnd
  let blanks ← minus? (byteLength rest) (byteLength (← trimStartAt? rest))
  match ← Arguments.enclosedAt? text (nameEnd + blanks) with
  | .error e => some (.error (.malformedCall (String.ofList text) e))
  | .ok (inner, after) =>
      let surplus ← trimAt? after
      if surplus.isEmpty then
        match decode kind ((Arguments.split inner).map String.ofList) with
        | .ok i => some (.ok i)
        | .error fault => some (.error (.invalidArgument kind fault))
      else
        let position ← minus? (byteLength text) (byteLength (← trimStartAt? after))
        some (.error (.malformedCall (String.ofList text)
          ⟨.surplusText (String.ofList surplus), position⟩))

/-- Read a call, if the text is one. -/
def readCallAt? (text : List Char) : Option (Option (Except ScriptFault Indicator)) := do
  match ← behindAt? namespaceMark.toList text with
  | none => some none
  | some rest =>
      let nameLength := byteLength (rest.takeWhile isIdentifierRest)
      match Kind.ofName? (String.ofList (← upTo? rest nameLength)) with
      | none => some none
      | some kind =>
          some (← readArgumentsAt? kind text (byteLength namespaceMark.toList + nameLength))

/-- What is left behind the list is no longer than the text. -/
theorem byteLength_trimStart_le {start : Nat} {name rest inner after : List Char}
    (h : Arguments.enclosed start (trimStart rest) = .ok (inner, after)) :
    byteLength (trimStart after) ≤ byteLength (name ++ rest) := by
  obtain ⟨front, -, hrest⟩ := exists_blanks_trimStart rest
  obtain ⟨back, -, hafter⟩ := exists_blanks_trimStart after
  have hlength := byteLength_append back (trimStart after)
  rw [hafter] at hlength
  rw [← hrest, Arguments.eq_append_of_enclosed h]
  simp only [byteLength_append, byteLength_cons]
  omega

/-- **The argument list read by offsets is the one behind the name.** -/
theorem readArgumentsAt?_append (kind : Kind) (name rest : List Char) :
    readArgumentsAt? kind (name ++ rest) (byteLength name) =
      some (readArguments kind name rest) := by
  have hrest : rest.takeWhile isBlank ++ trimStart rest = rest := List.takeWhile_append_dropWhile
  have hblanks : minus? (byteLength rest) (byteLength (trimStart rest)) =
      some (byteLength (rest.takeWhile isBlank)) := by
    have hminus := minus?_eq (byteLength (rest.takeWhile isBlank)) (byteLength (trimStart rest))
    rwa [← byteLength_append, hrest] at hminus
  have henclosed := Arguments.enclosedAt?_append (name ++ rest.takeWhile isBlank) (trimStart rest)
  rw [List.append_assoc, hrest, byteLength_append] at henclosed
  simp only [readArgumentsAt?, from?_append, trimStartAt?_eq, trimAt?_eq, hblanks, henclosed,
    readArguments, byteLength_append name (rest.takeWhile isBlank), Option.bind_eq_bind,
    Option.bind_some]
  cases hfound : Arguments.enclosed (byteLength name + byteLength (rest.takeWhile isBlank))
      (trimStart rest) with
  | error e => rfl
  | ok found =>
      obtain ⟨inner, after⟩ := found
      simp only
      split
      · cases decode kind ((Arguments.split inner).map String.ofList) <;> rfl
      · rw [minus?_of_le (byteLength_trimStart_le hfound), Option.bind_some]

/-- **The call read by offsets is the call that the text is.** -/
theorem readCallAt?_eq (text : List Char) : readCallAt? text = some (readCall? text) := by
  simp only [readCallAt?, behindAt?_eq, Option.bind_eq_bind, Option.bind_some, readCall?]
  cases hmark : namespaceMark.toList.isPrefixOf? text with
  | none => rfl
  | some rest =>
      obtain rfl := List.isPrefixOf?_eq_some_iff_append_eq.mp hmark
      have hname := upTo?_append (rest.takeWhile isIdentifierRest) (rest.dropWhile isIdentifierRest)
      rw [List.takeWhile_append_dropWhile] at hname
      simp only [hname, Option.bind_some]
      cases Kind.ofName? (String.ofList (rest.takeWhile isIdentifierRest)) with
      | none => rfl
      | some kind =>
          have harguments := readArgumentsAt?_append kind
            (namespaceMark.toList ++ rest.takeWhile isIdentifierRest)
            (rest.dropWhile isIdentifierRest)
          rw [List.append_assoc, List.takeWhile_append_dropWhile, byteLength_append] at harguments
          simp only [harguments, Option.bind_some]

end Indicator

end ChartScript
