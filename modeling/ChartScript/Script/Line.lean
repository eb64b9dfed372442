/-
Reading script lines.

A line is trimmed and its trailing comment is cut off.  What is left has one of a few
forms, which its first characters and its first equals sign tell apart:

  * `indicator(...)` declares a title;
  * `plot(...)` plots a series;
  * `name = ...` assigns;
  * anything else in front of a single equals sign is a faulty assignment, unless it
    has a parenthesis in it;
  * and every other line means nothing and is passed over.

The form of a line decides everything else about it: what it means, what is wrong with
it, and which parts of it are ignored.
-/
import ChartScript.Arguments
import ChartScript.Color
import ChartScript.Script.Statement

namespace ChartScript

open Text

namespace Line

/-- The form of a line. -/
inductive Form where
  /-- Nothing but blanks or a comment. -/
  | blank
  /-- A declaration, with the text from its parenthesis on. -/
  | declaration (arguments : List Char)
  /-- A plot, with the text from its parenthesis on. -/
  | plot (code arguments : List Char)
  /-- A name and what stands behind the equals sign. -/
  | assignment (target expression : List Char)
  | invalidTarget (target : List Char)
  | unrecognised (code : List Char)
deriving DecidableEq, Repr

/-- If a line starts with a word and an opening parenthesis, the text from the
parenthesis on. -/
def call? (word : String) (code : List Char) : Option (List Char) :=
  match word.toList.isPrefixOf? code with
  | none => none
  | some rest => if (trimStart rest).head? == some '(' then some (trimStart rest) else none

/-- The form of a line that neither declares nor plots. -/
def assignmentForm (code : List Char) : Form :=
  match code.dropWhile (· != '=') with
  | [] => .unrecognised code
  | _ :: right =>
      let left := code.takeWhile (· != '=')
      let comparison := right.head? == some '=' || left.getLast? == some '!' ||
        left.getLast? == some '<' || left.getLast? == some '>'
      if comparison then .unrecognised code
      else if isIdentifier (trim left) then .assignment (trim left) (trim right)
      else if (trim left).contains '(' then .unrecognised code
      else .invalidTarget (trim left)

/-- The code of a trimmed line: the line without its trailing comment. -/
def code (line : List Char) : List Char :=
  trimEnd (withoutComment line)

/-- The form of a line. -/
def form (raw : List Char) : Form :=
  let line := trim raw
  if line.isEmpty || "//".toList.isPrefixOf line then .blank
  else
    match call? "indicator" (code line) with
    | some arguments => .declaration arguments
    | none =>
        match call? "plot" (code line) with
        | some arguments => .plot (code line) arguments
        | none => assignmentForm (code line)

/-! ### Declarations -/

/-- A text without its quote characters. -/
def unquote (cs : List Char) : List Char :=
  cs.filter fun c => !isQuote c

/-- A title that is not empty once its quotes are gone. -/
def title? (cs : List Char) : Option String :=
  if (unquote cs).isEmpty then none else some (String.ofList (unquote cs))

/-- The title in the arguments of a declaration: the first argument, if it is named
`title` or has no name. -/
def declaredTitle? (arguments : List Char) : Option String :=
  match Arguments.enclosed 0 arguments with
  | .error _ => none
  | .ok (inner, _) =>
      match Arguments.split inner with
      | [] => none
      | first :: _ =>
          match Arguments.named? first with
          | none => title? first
          | some (key, value) => if key == "title".toList then title? value else none

/-! ### Plots -/

/-- The title of a plot that does not give one. -/
def defaultTitle : String := "Indicator"

/-- The arguments of a plot, sorted by how they are given. -/
structure PlotArguments where
  positional : List (List Char)
  /-- The value of the last argument named `title`. -/
  title : Option (List Char)
  /-- The value of the last argument named `color`. -/
  color : Option (List Char)
  /-- The names of the arguments that nothing uses. -/
  ignored : List (List Char)
deriving DecidableEq, Repr

namespace PlotArguments

/-- No arguments. -/
def none : PlotArguments := ⟨[], Option.none, Option.none, []⟩

/-- Sort one more argument in. -/
def add (sorted : PlotArguments) (argument : List Char) : PlotArguments :=
  match Arguments.named? argument with
  | Option.none => { sorted with positional := sorted.positional ++ [argument] }
  | some (key, value) =>
      if key == "title".toList then { sorted with title := some value }
      else if key == "color".toList then { sorted with color := some value }
      else { sorted with ignored := sorted.ignored ++ [key] }

/-- Sort a list of arguments. -/
def ofList (arguments : List (List Char)) : PlotArguments :=
  arguments.foldl add none

/-- The plot statement that the arguments make.  The series comes first; a title or a
color that is not named is the next argument without a name. -/
def statement (sorted : PlotArguments) (code : List Char) : Except PlotFault PlotStatement :=
  match sorted.positional with
  | [] => .error (.missingSeries (String.ofList code))
  | series :: others =>
      if series.isEmpty then .error (.missingSeries (String.ofList code))
      else
        let title := sorted.title.orElse fun _ => others.head?
        let others := if sorted.title.isSome then others else others.drop 1
        let color := sorted.color.orElse fun _ => others.head?
        .ok {
          series := String.ofList series
          title := (title.bind title?).getD defaultTitle
          color := Color.resolve (color.map String.ofList) }

end PlotArguments

/-- The sorted arguments of a plot, if its parentheses match and nothing stands behind
them. -/
def plotArguments (arguments : List Char) : Except PlotFault PlotArguments :=
  match Arguments.enclosed 0 arguments with
  | .error e => .error (.unclosed e.cause)
  | .ok (inner, after) =>
      if (trim after).isEmpty then .ok (.ofList (Arguments.split inner))
      else .error (.surplusText (String.ofList (trim after)))

/-- The plot statement of a line. -/
def plotStatement (code arguments : List Char) : Except PlotFault PlotStatement := do
  let sorted ← plotArguments arguments
  sorted.statement code

/-! ### Meaning -/

/-- What a line of a given form means, if anything. -/
def meaning (number : Nat) : Form → Except ScriptFault (Option Line)
  | .blank => .ok Option.none
  | .declaration arguments => .ok (some (.declaration (declaredTitle? arguments)))
  | .plot code arguments =>
      match plotStatement code arguments with
      | .ok plot => .ok (some (.statement ⟨number, .plot plot⟩))
      | .error fault => .error (.malformedPlot fault)
  | .assignment target expression =>
      match Expression.parse expression with
      | .ok expression =>
          .ok (some (.statement ⟨number, .assign (String.ofList target) expression⟩))
      | .error fault => .error fault
  | .invalidTarget target => .error (.invalidTarget (String.ofList target))
  | .unrecognised _ => .ok Option.none

/-- Read one line, which has the given number. -/
def parse (number : Nat) (raw : List Char) : Except ScriptError (Option Line) :=
  match meaning number (form raw) with
  | .ok line => .ok line
  | .error fault => .error ⟨number, fault⟩

end Line

end ChartScript
