/-
Lexemes: the words of arithmetic text.
-/
import ChartScript.Arithmetic.Basic

namespace ChartScript

/-- A word of arithmetic text. -/
inductive Lexeme where
  | number (value : Float)
  | identifier (name : String)
  | operator (operation : Operation)
  | openParen
  | closeParen
deriving DecidableEq

/-- How an error names a lexeme. -/
def Lexeme.description : Lexeme → String
  | .number value => "number " ++ plainText value
  | .identifier name => s!"'{name}'"
  | .operator operation => "'" ++ String.singleton operation.character ++ "'"
  | .openParen => "'('"
  | .closeParen => "')'"

end ChartScript
