/-
Reading scripts.

Each line is read by itself, so a script is a list of lines each of which is read or
faulty.  Reading a script as a whole stops at its first faulty line.
-/
import ChartScript.Script.Line

namespace ChartScript

open Text

namespace Script

/-- The lines of a script with their numbers, counted from one. -/
def numbered (cs : List Char) : List (Nat × List Char) :=
  ((lines cs).zipIdx 1).map fun (line, number) => (number, line)

/-- Read a numbered line, unless it means nothing. -/
def readLine? (line : Nat × List Char) : Option (Except ScriptError Line) :=
  match Line.parse line.1 line.2 with
  | .ok none => none
  | .ok (some line) => some (.ok line)
  | .error e => some (.error e)

/-- The lines of a script that mean something or are faulty, in order. -/
def readLines (cs : List Char) : List (Except ScriptError Line) :=
  (numbered cs).filterMap readLine?

/-- Collect lines into a script, up to the first faulty one. -/
def collect (script : Script) : List (Except ScriptError Line) → Except ScriptError Script
  | [] => .ok script
  | .error e :: _ => .error e
  | .ok (.declaration title) :: rest =>
      collect { script with title := script.title.orElse fun _ => title } rest
  | .ok (.statement statement) :: rest =>
      collect { script with statements := script.statements ++ [statement] } rest

/-- Read a script as a whole. -/
def parse (cs : List Char) : Except ScriptError Script :=
  collect ⟨none, []⟩ (readLines cs)

end Script

end ChartScript
