/-
Reading an indicator call.

A call is the namespace, a reserved name, perhaps blanks, and an argument list in
parentheses with nothing behind it.  Text that does not start with the namespace and
a reserved name is no call at all; text that does is a call, and an error if the rest
is not as it should be.
-/
import ChartScript.ScriptError

namespace ChartScript.Indicator

open Text

/-- Read the argument list of a call, of which `name` is the part in front of it. -/
def readArguments (kind : Kind) (name rest : List Char) : Except ScriptFault Indicator :=
  let text := name ++ rest
  let blanks := rest.takeWhile isBlank
  match Arguments.enclosed (byteLength (name ++ blanks)) (trimStart rest) with
  | .error e => .error (.malformedCall (String.ofList text) e)
  | .ok (inner, after) =>
      if (trim after).isEmpty then
        match decode kind ((Arguments.split inner).map String.ofList) with
        | .ok i => .ok i
        | .error fault => .error (.invalidArgument kind fault)
      else
        let position := byteLength text - byteLength (trimStart after)
        .error (.malformedCall (String.ofList text)
          ⟨.surplusText (String.ofList (trim after)), position⟩)

/-- Read a call, if the text is one. -/
def readCall? (cs : List Char) : Option (Except ScriptFault Indicator) :=
  match namespaceMark.toList.isPrefixOf? cs with
  | none => none
  | some rest =>
      let name := rest.takeWhile isIdentifierRest
      match Kind.ofName? (String.ofList name) with
      | none => none
      | some kind =>
          some (readArguments kind (namespaceMark.toList ++ name)
            (rest.dropWhile isIdentifierRest))

end ChartScript.Indicator
