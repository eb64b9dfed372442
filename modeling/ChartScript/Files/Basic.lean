/-
Files, as far as commands need them.

A command reads whole files and lists directories, and nothing else.  It does so through
the operations of this module, so the same command runs on the files of a machine and on
a tree of files that is held in memory.
-/
import ChartScript.Text.Blank

namespace ChartScript

/-- Why a file or a directory cannot be read. -/
inductive ReadFault where
  | notFound
  | notDirectory
  | isDirectory
  /-- Bytes that are no text. -/
  | notText
  | other (reason : String)
deriving DecidableEq, Repr

/-- The wording of a fault. -/
def ReadFault.message : ReadFault → String
  | .notFound => "No such file or directory (os error 2)"
  | .notDirectory => "Not a directory (os error 20)"
  | .isDirectory => "Is a directory (os error 21)"
  | .notText => "stream did not contain valid UTF-8"
  | .other reason => reason

/-- The operations on files that a command uses. -/
structure FileSystem (m : Type → Type) where
  /-- The text of the file at a path. -/
  readText : String → m (Except ReadFault String)
  /-- The names in the directory at a path, in any order. -/
  listNames : String → m (Except ReadFault (List String))

namespace Path

/-- The path of a name inside a directory.  An absolute name stands for itself, and so
does a name in a directory without a name. -/
def join (directory name : String) : String :=
  if name.toList.head? == some '/' then name
  else if directory.isEmpty || directory.toList.getLast? == some '/' then directory ++ name
  else directory ++ "/" ++ name

/-- A file name cut at its last point, unless that point is its first character. -/
def stemAndExtension? (name : List Char) : Option (List Char × List Char) :=
  let extension := (name.reverse.takeWhile (· != '.')).reverse
  match name.reverse.dropWhile (· != '.') with
  | [] => none
  | _ :: stem => if stem.isEmpty then none else some (stem.reverse, extension)

/-- What a file is called in front of a given extension. -/
def stemBefore? (extension : String) (name : String) : Option String :=
  match stemAndExtension? name.toList with
  | some (stem, found) =>
      if found == extension.toList then some (String.ofList stem) else none
  | none => none

end Path

end ChartScript
