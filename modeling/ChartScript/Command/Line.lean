/-
Command lines.

A command line names a command and gives it options.  An option is a flag or takes a
value, which follows it as the next word, behind an equals sign, or, for a short option,
directly.  A word that starts with a hyphen is never the value of the option in front of
it, unless it is the hyphen alone.  Each option may be given once.

A value is looked at when the next option, or the end of the line, shows that it is
complete; an option that nobody knows is reported before the value in front of it is
looked at.
-/
import ChartScript.Command.Basic

namespace ChartScript

open Text

namespace Command

/-- The commands without their options. -/
inductive Verb where
  | run
  | check
  | listSymbols
deriving DecidableEq, Repr

namespace Verb

/-- All commands. -/
def all : List Verb := [.run, .check, .listSymbols]

/-- The word for a command. -/
def name : Verb → String
  | .run => "run"
  | .check => "check"
  | .listSymbols => "list-symbols"

/-- The command that a word stands for. -/
def ofName? (word : String) : Option Verb :=
  all.find? fun verb => verb.name == word

end Verb

/-- The options of commands. -/
inductive Setting where
  | script
  | symbol
  | config
  | dataDir
  | format
  | pretty
  | help
deriving DecidableEq, Repr

namespace Setting

/-- All options. -/
def all : List Setting := [.script, .symbol, .config, .dataDir, .format, .pretty, .help]

/-- The name of an option behind two hyphens. -/
def name : Setting → String
  | .script => "script"
  | .symbol => "symbol"
  | .config => "config"
  | .dataDir => "data-dir"
  | .format => "format"
  | .pretty => "pretty"
  | .help => "help"

/-- The letter of an option behind one hyphen, if it has one. -/
def letter? : Setting → Option Char
  | .script => some 's'
  | .config => some 'c'
  | .help => some 'h'
  | _ => none

/-- Whether an option takes a value. -/
def takesValue : Setting → Bool
  | .pretty | .help => false
  | _ => true

/-- Whether the value of an option is a path, which cannot be empty. -/
def isPath : Setting → Bool
  | .script | .config | .dataDir => true
  | _ => false

end Setting

/-- The options that a command knows. -/
def Verb.settings : Verb → List Setting
  | .run => [.script, .symbol, .config, .dataDir, .format, .pretty, .help]
  | .check => [.script, .help]
  | .listSymbols => [.config, .dataDir, .format, .help]

/-- What is wrong with a command line, or that it asks for help. -/
inductive UsageError where
  /-- Help has been asked for. -/
  | help
  /-- No command has been named. -/
  | missingCommand
  | unknownCommand
  | unknownArgument
  | missingOption
  /-- An option without its value, or a path that is empty. -/
  | missingValue
  | invalidValue
  | repeatedOption
  /-- A flag with a value. -/
  | surplusValue
deriving DecidableEq, Repr

/-- The exit status of a command line that is not executed. -/
def UsageError.exitStatus : UsageError → Nat
  | .help => 0
  | _ => 2

/-! ### Options -/

/-- What has been read of the options. -/
structure Options where
  /-- The options that have been given, with their values. -/
  given : List (Setting × String)
  /-- The option that was read last, whose value has not been looked at and may not have
  come. -/
  pending : Option (Setting × Option String)
deriving DecidableEq, Repr

namespace Options

/-- The value of an option. -/
def get? (options : Options) (setting : Setting) : Option String :=
  (options.given.find? fun entry => entry.1 == setting).map (·.2)

/-- Whether a value will do for an option. -/
def checkValue (setting : Setting) (value : String) : Except UsageError Unit :=
  if setting.isPath && value.isEmpty then .error .missingValue
  else if setting == .format then
    match DataFormat.parse value with
    | .ok _ => .ok ()
    | .error _ => .error .invalidValue
  else .ok ()

/-- Take an option with its value. -/
def give (options : Options) (setting : Setting) (value : String) :
    Except UsageError Options :=
  if (options.get? setting).isSome then .error .repeatedOption
  else
    match checkValue setting value with
    | .ok () => .ok { options with given := (setting, value) :: options.given }
    | .error e => .error e

/-- Take the option that is pending, if one is. -/
def settle (options : Options) : Except UsageError Options :=
  match options.pending with
  | none => .ok options
  | some (_, none) => .error .missingValue
  | some (setting, some value) => ({ options with pending := none }).give setting value

/-- Whether the option that was read last waits for its value. -/
def isWaiting (options : Options) : Bool :=
  match options.pending with
  | some (_, none) => true
  | _ => false

/-- Take an option that takes a value, which may be attached to it. -/
def takeOption (options : Options) (setting : Setting) (attached : Option String) :
    Except UsageError Options := do
  let options ← options.settle
  match attached with
  | some value => options.give setting value
  | none => return { options with pending := some (setting, none) }

/-- Take a flag. -/
def takeFlag (options : Options) (setting : Setting) : Except UsageError Options := do
  let options ← options.settle
  if setting == .help then .error .help
  options.give setting ""

/-- Read an option behind two hyphens. -/
def readLong (options : Options) (known : List Setting) (word : List Char) :
    Except UsageError Options :=
  let name := String.ofList (word.takeWhile (· != '='))
  let attached :=
    match word.dropWhile (· != '=') with
    | [] => none
    | _ :: value => some (String.ofList value)
  match known.find? fun setting => setting.name == name with
  | none => .error .unknownArgument
  | some setting =>
      if setting.takesValue then options.takeOption setting attached
      else if attached.isSome then .error .surplusValue
      else options.takeFlag setting

/-- The value attached to a short option. -/
def attachedValue? : List Char → Option String
  | [] => none
  | '=' :: value => some (String.ofList value)
  | value => some (String.ofList value)

/-- Read the letters behind one hyphen. -/
def readShort (options : Options) (known : List Setting) : List Char → Except UsageError Options
  | [] => .ok options
  | letter :: rest =>
      match known.find? fun setting => setting.letter? == some letter with
      | none => .error .unknownArgument
      | some setting =>
          if setting.takesValue then options.takeOption setting (attachedValue? rest)
          else
            match options.takeFlag setting with
            | .ok options => options.readShort known rest
            | .error e => .error e

/-- Read a word that is no option: the value of an option that waits for it. -/
def readPlain (options : Options) (word : List Char) : Except UsageError Options :=
  match options.pending with
  | some (setting, none) => .ok { options with pending := some (setting, some (String.ofList word)) }
  | _ => .error .unknownArgument

/-- Read one word. -/
def readWord (options : Options) (known : List Setting) : List Char → Except UsageError Options
  | '-' :: '-' :: word => options.readLong known word
  | '-' :: letter :: rest => options.readShort known (letter :: rest)
  | word => options.readPlain word

/-- Read the words behind the name of a command.  Behind two hyphens alone no word is
known. -/
def readWords (options : Options) (known : List Setting) : List String → Except UsageError Options
  | [] => options.settle
  | word :: words =>
      if word == "--" then (if words.isEmpty then options.settle else .error .unknownArgument)
      else
        match options.readWord known word.toList with
        | .ok options => options.readWords known words
        | .error e => .error e

/-- The value of an option that must be given. -/
def required (options : Options) (setting : Setting) : Except UsageError String :=
  match options.get? setting with
  | some value => .ok value
  | none => .error .missingOption

/-- What the options change of the settings. -/
def overrides (options : Options) : Settings.Overrides where
  directory := options.get? .dataDir
  format := (options.get? .format).bind fun word => (DataFormat.parse word).toOption
  pretty := (options.get? .pretty).isSome

end Options

/-- The command that some options complete. -/
def Verb.complete (verb : Verb) (options : Options) : Except UsageError Command :=
  match verb with
  | .run => do
      let script ← options.required .script
      let symbol ← options.required .symbol
      return .run script symbol (options.get? .config) options.overrides
  | .check => do return .check (← options.required .script)
  | .listSymbols => .ok (.listSymbols (options.get? .config) options.overrides)

/-! ### Command lines -/

/-- The word that asks for help on what follows it. -/
def helpWord : String := "help"

/-- Help on a command, on help, or on everything. -/
def readHelp : List String → UsageError
  | [] => .help
  | [word] => if (Verb.ofName? word).isSome || word == helpWord then .help else .unknownCommand
  | _ => .unknownCommand

/-- A word where a command has to be named. -/
def unnamed : List Char → UsageError
  | '-' :: '-' :: word =>
      if word == "help".toList then .help
      else if "help=".toList.isPrefixOf word then .surplusValue
      else .unknownArgument
  | '-' :: letter :: _ => if letter == 'h' then .help else .unknownArgument
  | _ => .unknownCommand

/-- What two hyphens leave of the words behind them, where a command has to be named. -/
def afterHyphens : List String → UsageError
  | [] => .missingCommand
  | word :: _ =>
      if (Verb.ofName? word).isSome || word == helpWord then .unknownArgument
      else .unknownCommand

/-- Read a command line, without the name of the program. -/
def ofWords : List String → Except UsageError Command
  | [] => .error .missingCommand
  | word :: words =>
      match Verb.ofName? word with
      | some verb =>
          match Options.readWords ⟨[], none⟩ verb.settings words with
          | .ok options => verb.complete options
          | .error e => .error e
      | none =>
          if word == helpWord then .error (readHelp words)
          else if word == "--" then .error (afterHyphens words)
          else .error (unnamed word.toList)

end Command

end ChartScript
