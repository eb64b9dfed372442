/-
Sources of market data.

A source is a directory with a file for each symbol, all in one format.  The file is
named for the symbol, with the extension of the format.
-/
import ChartScript.Failure
import ChartScript.Files.Basic
import ChartScript.Source.Csv
import ChartScript.Source.Json
import ChartScript.Text.Order

namespace ChartScript

open Text

/-- The formats of market data. -/
inductive DataFormat where
  | csv
  | json
deriving DecidableEq, Repr

namespace DataFormat

/-- The extension of the files in a format. -/
def extension : DataFormat → String
  | .csv => "csv"
  | .json => "json"

/-- The format that a word names, in capitals or not; otherwise the wording of an error. -/
def parse (word : String) : Except String DataFormat :=
  let name := String.ofList ((trim word.toList).map Char.toLower)
  if name == "csv" then .ok .csv
  else if name == "json" then .ok .json
  else .error s!"unknown format '{name}', expected csv or json"

end DataFormat

/-- A directory with market data. -/
structure Source where
  directory : String
  format : DataFormat
deriving DecidableEq, Repr

namespace Source

/-- The path of the file for a symbol. -/
def path (source : Source) (symbol : String) : String :=
  Path.join source.directory (symbol ++ "." ++ source.format.extension)

/-- The rows in a file.  What is wrong with a document is told by the library that reads it, in
words of its own: the words behind the path stand for these, and nothing is said about them. -/
def readRows (format : DataFormat) (path : String) (text : String) :
    Except Failure (List Row) :=
  match format with
  | .csv =>
      match csvRows text.toList with
      | .ok rows => .ok rows
      | .error fault => .error (.data fault.message)
  | .json =>
      match jsonRows? text.toList with
      | some rows => .ok rows
      | none => .error (.data s!"JSON parse error in {path}: not a list of rows")

/-- The bars for a symbol. -/
def fetch {m : Type → Type} [Monad m] (files : FileSystem m) (source : Source)
    (symbol : String) : m (Except Failure (List Bar)) := do
  let path := source.path symbol
  match ← files.readText path with
  | .error fault => return .error (.data (s!"failed to read {path}: " ++ fault.message))
  | .ok text =>
      match readRows source.format path text with
      | .ok rows => return .ok (Bar.ofRows rows)
      | .error failure => return .error failure

/-- A file of market data is read and then its rows are. -/
theorem fetch_eq (files : FileSystem Id) (source : Source) (symbol : String) :
    source.fetch files symbol =
      match (show Except ReadFault String from files.readText (source.path symbol)) with
      | .error fault =>
          Except.error (.data (s!"failed to read {source.path symbol}: " ++ fault.message))
      | .ok text =>
          match readRows source.format (source.path symbol) text with
          | .ok rows => .ok (Bar.ofRows rows)
          | .error failure => .error failure :=
  rfl

/-- The symbols among some file names, in ascending order. -/
def symbolsAmong (format : DataFormat) (names : List String) : List String :=
  sortNames (names.filterMap (Path.stemBefore? format.extension))

/-- The symbols that there are files for. -/
def symbols {m : Type → Type} [Monad m] (files : FileSystem m) (source : Source) :
    m (Except Failure (List String)) := do
  match ← files.listNames source.directory with
  | .error fault =>
      return .error (.data (s!"failed to read directory {source.directory}: " ++ fault.message))
  | .ok names => return .ok (symbolsAmong source.format names)

end Source

end ChartScript
