/-
Statements: what the lines of a script say.
-/
import ChartScript.Expression

namespace ChartScript

/-- A plot statement: the name of the series as it was written, and the title and
color to draw it with. -/
structure PlotStatement where
  series : String
  title : String
  color : String
deriving DecidableEq, Repr

/-- What a statement does. -/
inductive Action where
  | assign (target : String) (expression : Expression)
  | plot (plot : PlotStatement)
deriving DecidableEq

/-- The text of an action. -/
def Action.text : Action → String
  | .assign target expression => target ++ " = " ++ expression.text
  | .plot p => "plot " ++ p.series ++ " as \x22" ++ p.title ++ "\x22 in " ++ p.color

/-- An action and the line it stands on, counted from one. -/
structure Statement where
  line : Nat
  action : Action
deriving DecidableEq

/-- A line that means something. -/
inductive Line where
  /-- The declaration of an indicator, with its title if it has one. -/
  | declaration (title : Option String)
  | statement (statement : Statement)
deriving DecidableEq

/-- A script that has been read as a whole. -/
structure Script where
  /-- The first title that a declaration gives. -/
  title : Option String
  statements : List Statement
deriving DecidableEq

end ChartScript
