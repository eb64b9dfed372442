/-
Colors of plots.

A color is written as one of eight names, as another word in the same namespace, or
as anything else, which is taken as it stands.
-/
import ChartScript.Text.Blank

namespace ChartScript.Color

open Text

/-- The color of a plot that does not say which. -/
def fallback : String := "#2962FF"

/-- The namespace of color names. -/
def namespaceMark : String := "color."

/-- The colors that have names. -/
def named : List (String × String) :=
  [("color.purple", "#A020F0"), ("color.blue", "#2962FF"), ("color.red", "#FF0000"),
    ("color.green", "#00FF00"), ("color.orange", "#FFA500"), ("color.yellow", "#FFFF00"),
    ("color.aqua", "#00FFFF"), ("color.white", "#FFFFFF")]

/-- The word that names a color, without a `color=` in front of it. -/
def word (cs : List Char) : List Char :=
  match cs.dropWhile (· != '=') with
  | _ :: value =>
      if trim (cs.takeWhile (· != '=')) == "color".toList then trim value else trim cs
  | [] => trim cs

/-- The color that a word stands for.  A word of the namespace that is not one of
the eight becomes a hash sign and the rest of the word. -/
def ofWord (cs : List Char) : String :=
  match named.find? fun entry => entry.1.toList == cs with
  | some (_, hex) => hex
  | none =>
      match namespaceMark.toList.isPrefixOf? cs with
      | some rest => "#" ++ String.ofList rest
      | none => String.ofList cs

/-- The color that a plot statement asks for. -/
def resolve : Option String → String
  | none => fallback
  | some written => ofWord (word written.toList)

end ChartScript.Color
