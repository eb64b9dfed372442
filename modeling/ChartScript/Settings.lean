/-
Settings of a command: where the market data is, what format it is in, and how result
documents are laid out.

Settings come from a configuration, and what the command line gives takes precedence.
The values in a configuration are checked before anything is overridden.
-/
import ChartScript.Ini
import ChartScript.Source.Basic

namespace ChartScript

/-- The settings of a command. -/
structure Settings where
  source : Source
  pretty : Bool
deriving DecidableEq, Repr

namespace Settings

/-- The settings without a configuration. -/
def standard : Settings := ⟨⟨".", .csv⟩, false⟩

/-- Check the directory of a configuration. -/
def checkDirectory (ini : Ini) : Except Failure Unit :=
  match ini.get? "data" "dir" with
  | some directory =>
      if (Text.trim directory.toList).isEmpty then
        .error (.configInvalid "data" "dir" "dir must not be empty")
      else .ok ()
  | none => .ok ()

/-- The format of a configuration. -/
def readFormat (ini : Ini) : Except Failure DataFormat :=
  match ini.get? "data" "format" with
  | some word =>
      match DataFormat.parse word with
      | .ok format => .ok format
      | .error reason => .error (.configInvalid "data" "format" reason)
  | none => .ok standard.source.format

/-- Check a configuration: its directory, and then its format. -/
def check (ini : Ini) : Except Failure Unit := do
  checkDirectory ini
  let _ ← readFormat ini

/-- The settings of a configuration. -/
def ofIni (ini : Ini) : Except Failure Settings := do
  checkDirectory ini
  let format ← readFormat ini
  let directory := (ini.get? "data" "dir").getD standard.source.directory
  return ⟨⟨directory, format⟩, ini.getBool "output" "pretty" standard.pretty⟩

/-- Settings given on a command line. -/
structure Overrides where
  directory : Option String
  format : Option DataFormat
  pretty : Bool
deriving DecidableEq, Repr

/-- The settings with some of them overridden.  Nothing takes a wish for a document over
lines back. -/
def override (settings : Settings) (given : Overrides) : Settings where
  source := {
    directory := given.directory.getD settings.source.directory
    format := given.format.getD settings.source.format }
  pretty := settings.pretty || given.pretty

/-- The settings of a command: those of the configuration, if there is one, or else the
standard ones, with some overridden. -/
def resolve (ini : Option Ini) (given : Overrides) : Except Failure Settings :=
  match ini with
  | none => .ok (standard.override given)
  | some ini =>
      match ofIni ini with
      | .ok settings => .ok (settings.override given)
      | .error failure => .error failure

/-- Read a configuration, which comes from a file of the given name. -/
def readIni (name text : String) : Except Failure Ini :=
  match Ini.parse text.toList with
  | .ok ini => .ok ini
  | .error fault => .error (.configParse name fault.message)

/-- Read the configuration file at a path. -/
def loadIni {m : Type → Type} [Monad m] (files : FileSystem m) (path : String) :
    m (Except Failure Ini) := do
  match ← files.readText path with
  | .error fault =>
      return .error (.configParse path (s!"couldn't read {path}: " ++ fault.message))
  | .ok text =>
      match Ini.parse text.toList with
      | .ok ini => return .ok ini
      | .error fault =>
          return .error (.configParse path (s!"couldn't read {path}: " ++ fault.message))

end Settings

end ChartScript
