/-
The program: a command line, executed on the files of the machine.
-/
import ChartScript.Command.Line

namespace ChartScript.Program

/-- What an error of the operating system is in the terms of commands. -/
def readFault : IO.Error → ReadFault
  | .noFileOrDirectory .. => .notFound
  | .inappropriateType .. => .notDirectory
  | e => .other (toString e)

/-- The text of a file of the machine. -/
def readText (path : String) : IO (Except ReadFault String) := do
  try
    let bytes ← IO.FS.readBinFile path
    match String.fromUTF8? bytes with
    | some text => return .ok text
    | none => return .error .notText
  catch e => return .error (readFault e)

/-- The names in a directory of the machine. -/
def listNames (path : String) : IO (Except ReadFault (List String)) := do
  try
    let directory := (← IO.currentDir) / path
    return .ok ((← directory.readDir).toList.map fun entry => entry.fileName)
  catch e => return .error (readFault e)

/-- The files of the machine. -/
def fileSystem : FileSystem IO := ⟨readText, listNames⟩

/-- How the program is used. -/
def usage : String :=
  "usage: chartscript run -s SCRIPT --symbol SYMBOL [-c CONFIG] [--data-dir DIR] " ++
    "[--format csv|json] [--pretty]\n" ++
  "       chartscript check -s SCRIPT\n" ++
  "       chartscript list-symbols [-c CONFIG] [--data-dir DIR] [--format csv|json]\n"

end ChartScript.Program

open ChartScript in
/-- Execute a command line. -/
def main (words : List String) : IO UInt32 := do
  match Command.ofWords words with
  | .error .help =>
      IO.print Program.usage
      return 0
  | .error e =>
      IO.eprint Program.usage
      return UInt32.ofNat e.exitStatus
  | .ok command =>
      let report ← command.execute Program.fileSystem
      IO.print report.stdout
      IO.eprint report.stderr
      return UInt32.ofNat report.exit
