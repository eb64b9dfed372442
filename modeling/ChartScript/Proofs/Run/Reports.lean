/-
No leniency is silent.

A run comes to one line after another and reports on each, so what is reported is made up of
blocks, one for each line that the run comes to.  `Visit.Reports` tells what the block of a line is:
what the line says decides it, together with the names that are bound in front of the line.  A plot
is reported as drawn or as skipped.  `Visit.Warranted` tells the warnings in the block: only
arithmetic with names that are not bound and text that does not parse are warned of.

The names that are not bound are warned of in the order of their first use.  They are collected by
going through all uses from left to right, and a use of a name that is there already adds nothing.
-/
import Mathlib.Data.List.Forall2
import Mathlib.Data.List.Induction
import ChartScript.Proofs.Run.Agreement
import ChartScript.Proofs.Run.Drawing
import ChartScript.Run.Pipeline

namespace ChartScript

/-! ### The order of first use -/

namespace Arithmetic

/-- The names that an expression reads, from left to right and as often as it reads them. -/
def uses : Arithmetic → List String
  | .number _ => []
  | .symbol name => [name]
  | .neg operand => operand.uses
  | .binary _ left right => left.uses ++ right.uses

theorem symbolsFrom_eq (e : Arithmetic) (names : List String) :
    e.symbolsFrom names = e.uses.foldl addName names := by
  induction e generalizing names with
  | number value => rfl
  | symbol name => rfl
  | neg operand ih => exact ih names
  | binary operation left right ihl ihr =>
      rw [symbolsFrom, ihl, ihr, uses, List.foldl_append]

end Arithmetic

/-- Some of the names that are used, each of them once and in the order of their first use. -/
structure ListsFirstUses (used : List String) (P : String → Prop) (names : List String) : Prop where
  mem_iff : ∀ name, name ∈ names ↔ name ∈ used ∧ P name
  pairwise : names.Pairwise fun a b => used.idxOf a < used.idxOf b

/-- One more use lists its name behind the others, unless it is there. -/
theorem ListsFirstUses.addName {used names : List String}
    (h : ListsFirstUses used (fun _ => True) names) (name : String) :
    ListsFirstUses (used ++ [name]) (fun _ => True) (Arithmetic.addName names name) := by
  have hmem : ∀ other, other ∈ names ↔ other ∈ used := by simpa using h.mem_iff
  have hsame : ∀ other ∈ names, (used ++ [name]).idxOf other = used.idxOf other :=
    fun other hother => List.idxOf_append_of_mem ((hmem other).mp hother)
  have hpairwise : names.Pairwise fun a b =>
      (used ++ [name]).idxOf a < (used ++ [name]).idxOf b := by
    refine h.pairwise.imp_of_mem fun {a b} ha hb hlt => ?_
    rwa [hsame a ha, hsame b hb]
  unfold Arithmetic.addName
  -- The places of first use stay as they are, and a new name is used behind all of them.
  by_cases hname : name ∈ names
  · rw [if_pos (List.contains_iff_mem.mpr hname)]
    refine ⟨fun other => ?_, hpairwise⟩
    rw [hmem, List.mem_append, List.mem_singleton, and_true]
    constructor
    · exact Or.inl
    · rintro (hother | rfl)
      · exact hother
      · exact (hmem other).mp hname
  · rw [if_neg (fun hcontains => hname (List.contains_iff_mem.mp hcontains))]
    refine ⟨fun other => by simp [hmem], List.pairwise_append.mpr ⟨hpairwise, by simp, ?_⟩⟩
    intro other hother last hlast
    obtain rfl := List.mem_singleton.mp hlast
    have hlate : (used ++ [last]).idxOf last = used.length := by
      rw [List.idxOf_append_of_notMem fun hused => hname ((hmem last).mpr hused)]
      simp
    rw [hsame other hother, hlate]
    exact List.idxOf_lt_length_of_mem ((hmem other).mp hother)

/-- The names of an expression are listed in the order of their first use. -/
theorem Arithmetic.listsFirstUses_symbols (e : Arithmetic) :
    ListsFirstUses e.uses (fun _ => True) e.symbols := by
  rw [symbols, symbolsFrom_eq]
  generalize e.uses = used
  induction used using List.reverseRecOn with
  | nil => exact ⟨by simp, List.Pairwise.nil⟩
  | append_singleton used name ih =>
      rw [List.foldl_append]
      exact ih.addName name

theorem ListsFirstUses.filter {used names : List String} {P : String → Prop}
    (h : ListsFirstUses used (fun _ => True) names) {p : String → Bool}
    (hp : ∀ name, p name = true ↔ P name) : ListsFirstUses used P (names.filter p) where
  mem_iff name := by rw [List.mem_filter, h.mem_iff, and_true, hp]
  pairwise := h.pairwise.filter p

/-! ### What the block of a line is -/

namespace Event

/-- An event that tells of something that reading a line passes over. -/
inductive IsNotice : Event → Prop where
  | line (number : Nat) (code : String) : IsNotice (.unrecognisedLine number code)
  | argument (name : String) : IsNotice (.ignoredArgument name)

/-- Whether an event is a warning. -/
def isWarning (event : Event) : Bool :=
  event.level = .warn

theorem IsNotice.isWarning_eq_false {event : Event} (h : event.IsNotice) :
    event.isWarning = false := by
  cases h <;> rfl

/-- Whether an event tells that something is drawn. -/
def isPlotted : Event → Bool
  | .plotted .. => true
  | _ => false

end Event

namespace Run

/-- A line that a run comes to, with the state in front of it. -/
structure Visit where
  run : Run
  number : Nat
  raw : List Char

namespace Visit

/-- What the line says, if it says anything. -/
def reading (visit : Visit) : Except ScriptError (Option Line) :=
  Line.parse visit.number visit.raw

/-- What the line says if it assigns. -/
def Assigns (visit : Visit) (target : String) (expression : Expression) : Prop :=
  visit.reading = .ok (some (.statement ⟨visit.number, .assign target expression⟩))

/-- What the line says if it plots. -/
def Plots (visit : Visit) (plot : PlotStatement) : Prop :=
  visit.reading = .ok (some (.statement ⟨visit.number, .plot plot⟩))

/-- What is reported on a line that a run comes to. -/
inductive Reports (visit : Visit) : List Event → Prop where
  | faulty {e : ScriptError} {notices : List Event} (reads : visit.reading = .error e)
      (notes : ∀ event ∈ notices, event.IsNotice) : Reports visit notices
  | idle {notices : List Event} (reads : visit.reading = .ok none)
      (notes : ∀ event ∈ notices, event.IsNotice) : Reports visit notices
  | declaration {title : Option String} (reads : visit.reading = .ok (some (.declaration title))) :
      Reports visit [.declaration title]
  /-- Each name that is not bound is warned of once, in the order of first use. -/
  | arithmetic {target : String} {tree : Arithmetic} {names : List String}
      (reads : visit.Assigns target (.arithmetic tree))
      (unbound : ListsFirstUses tree.uses (fun name => visit.run.symbols.contains name = false)
        names) :
      Reports visit (names.map (.unknownVariable · tree) ++
        [.assigned visit.number target (.arithmetic tree)])
  | invalid {target text : String} {error : ParseError}
      (reads : visit.Assigns target (.invalid text error)) :
      Reports visit [.unparsable text error, .assigned visit.number target (.invalid text error)]
  | indicator {target : String} {call : Indicator} {series : Series}
      (reads : visit.Assigns target (.indicator call))
      (computes : call.compute visit.run.symbols = .ok series) :
      Reports visit [.assigned visit.number target (.indicator call)]
  | failing {target name : String} {call : Indicator}
      (reads : visit.Assigns target (.indicator call))
      (fails : call.compute visit.run.symbols = .error name) : Reports visit []
  | plotted {plot : PlotStatement} {drawn : PlotResult} {notices : List Event}
      (reads : visit.Plots plot)
      (draws : (visit.run.draw plot).results = visit.run.results ++ [drawn])
      (notes : ∀ event ∈ notices, event.IsNotice) :
      Reports visit (notices ++ [.plotted visit.number drawn.name drawn.data.length])
  | skipped {plot : PlotStatement} {notices : List Event} (reads : visit.Plots plot)
      (unbound : visit.run.symbols.get? plot.series = none)
      (notes : ∀ event ∈ notices, event.IsNotice) :
      Reports visit (notices ++
        [.plotSkipped visit.number plot.series visit.run.symbols.names])

/-- A warning that the line gives cause for. -/
def Warns (visit : Visit) (event : Event) : Prop :=
  ∃ target,
    (∃ tree name, visit.Assigns target (.arithmetic tree) ∧ event = .unknownVariable name tree) ∨
    ∃ text error, visit.Assigns target (.invalid text error) ∧ event = .unparsable text error

/-- The warnings about a line, all of them and in order: one for each name that is not bound, or one
for a text that does not parse.  Nothing else is warned of. -/
inductive Warranted (visit : Visit) : List Event → Prop where
  | unbound {target : String} {tree : Arithmetic} {names : List String}
      (reads : visit.Assigns target (.arithmetic tree))
      (unbound : ListsFirstUses tree.uses (fun name => visit.run.symbols.contains name = false)
        names) : Warranted visit (names.map (.unknownVariable · tree))
  | unparsable {target text : String} {error : ParseError}
      (reads : visit.Assigns target (.invalid text error)) :
      Warranted visit [.unparsable text error]
  | nothing (quiet : ∀ target expression, visit.Assigns target expression →
      ∃ call, expression = .indicator call) : Warranted visit []

/-- What the trace has for a line. -/
def events (visit : Visit) : List Event :=
  (Line.form visit.raw).notices visit.number ++
    match visit.reading with
    | .ok (some line) => visit.run.lineReports line
    | _ => []

end Visit

theorem isNotice_of_mem_notices {number : Nat} {form : Line.Form} {event : Event}
    (h : event ∈ form.notices number) : event.IsNotice := by
  cases form with
  | plot code arguments =>
      simp only [Line.Form.notices] at h
      split at h
      · obtain ⟨name, -, rfl⟩ := List.mem_map.mp h
        exact .argument _
      · cases h
  | unrecognised code =>
      obtain rfl := List.mem_singleton.mp h
      exact .line number _
  | blank => cases h
  | declaration arguments => cases h
  | assignment target expression => cases h
  | invalidTarget target => cases h

/-- An assignment is reported as its right-hand side tells. -/
theorem Visit.reports_of_assigns {visit : Visit} {target : String} {expression : Expression}
    (h : visit.Assigns target expression) :
    visit.Reports (visit.run.reports ⟨visit.number, .assign target expression⟩) := by
  simp only [Run.reports]
  cases expression with
  | arithmetic tree =>
      refine .arithmetic h (tree.listsFirstUses_symbols.filter fun name => ?_)
      rw [Bool.not_eq_true']
  | invalid text error => exact .invalid h
  | indicator call =>
      simp only [warnings, Expression.evaluate]
      cases hcompute : call.compute visit.run.symbols with
      | ok series => exact .indicator h hcompute
      | error name => exact .failing h hcompute

theorem Visit.reports_of_plots {visit : Visit} {plot : PlotStatement} (h : visit.Plots plot)
    {notices : List Event} (notes : ∀ event ∈ notices, event.IsNotice) :
    visit.Reports (notices ++ visit.run.reports ⟨visit.number, .plot plot⟩) := by
  simp only [Run.reports]
  cases hseries : visit.run.symbols.get? plot.series with
  | none => exact .skipped h hseries notes
  | some series => exact .plotted h (by simp [draw, hseries]) notes

/-- Reading a line that does not plot passes over nothing if the line means something. -/
theorem notices_eq_nil_or_plots {visit : Visit} {line : Line}
    (h : visit.reading = .ok (some line)) :
    (Line.form visit.raw).notices visit.number = [] ∨
      ∃ plot, line = .statement ⟨visit.number, .plot plot⟩ := by
  have hmeaning := Line.meaning_of_parse_eq_ok h
  cases hform : Line.form visit.raw with
  | plot code arguments =>
      rw [hform, Line.meaning] at hmeaning
      split at hmeaning
      · cases hmeaning
        exact Or.inr ⟨_, rfl⟩
      · cases hmeaning
  | unrecognised code =>
      rw [hform] at hmeaning
      cases hmeaning
  | blank => exact Or.inl rfl
  | declaration arguments => exact Or.inl rfl
  | assignment target expression => exact Or.inl rfl
  | invalidTarget target => exact Or.inl rfl

/-- **The block of a line is what its reading and the names bound in front of it tell.** -/
theorem Visit.reports_events (visit : Visit) : visit.Reports visit.events := by
  have hnotes : ∀ event ∈ (Line.form visit.raw).notices visit.number, event.IsNotice :=
    fun _ => isNotice_of_mem_notices
  unfold events
  cases hreading : visit.reading with
  | error e =>
      rw [List.append_nil]
      exact .faulty hreading hnotes
  | ok line? =>
      cases line? with
      | none =>
          rw [List.append_nil]
          exact .idle hreading hnotes
      | some line =>
          rcases notices_eq_nil_or_plots hreading with hnil | ⟨plot, rfl⟩
          · rw [hnil, List.nil_append]
            cases line with
            | declaration title => exact .declaration hreading
            | statement s =>
                obtain ⟨number, action⟩ := s
                obtain rfl : number = visit.number := Line.line_of_parse_eq_statement hreading
                cases action with
                | assign target expression => exact reports_of_assigns hreading
                | plot plot =>
                    show visit.Reports ([] ++ visit.run.reports ⟨visit.number, .plot plot⟩)
                    exact reports_of_plots hreading (List.forall_mem_nil _)
          · exact reports_of_plots hreading hnotes

/-- **The warnings in the block of a line are those that the line gives cause for.** -/
theorem Visit.Reports.warranted {visit : Visit} {block : List Event} (h : visit.Reports block) :
    visit.Warranted (block.filter Event.isWarning) := by
  have hnotes {notices : List Event} (notes : ∀ event ∈ notices, event.IsNotice) :
      notices.filter Event.isWarning = [] := by
    refine List.filter_eq_nil_iff.mpr fun event hevent => ?_
    rw [(notes event hevent).isWarning_eq_false]
    exact Bool.false_ne_true
  have hnothing {said : Except ScriptError (Option Line)} (reads : visit.reading = said)
      (hother : ∀ target expression,
        said ≠ .ok (some (.statement ⟨visit.number, .assign target expression⟩))) :
      visit.Warranted [] :=
    .nothing fun target expression hassigns =>
      absurd (reads.symm.trans hassigns) (hother target expression)
  cases h with
  | faulty reads notes =>
      rw [hnotes notes]
      exact hnothing reads nofun
  | idle reads notes =>
      rw [hnotes notes]
      exact hnothing reads nofun
  | declaration reads => exact hnothing reads nofun
  | @arithmetic target tree names reads unbound =>
      have hwarnings : (names.map (.unknownVariable · tree)).filter Event.isWarning =
          names.map (.unknownVariable · tree) := by
        refine List.filter_eq_self.mpr fun event hevent => ?_
        obtain ⟨name, -, rfl⟩ := List.mem_map.mp hevent
        rfl
      rw [List.filter_append, hwarnings]
      show visit.Warranted (names.map (.unknownVariable · tree) ++ [])
      rw [List.append_nil]
      exact .unbound reads unbound
  | invalid reads => exact .unparsable reads
  | indicator reads computes =>
      refine .nothing fun target expression hassigns => ?_
      cases reads.symm.trans hassigns
      exact ⟨_, rfl⟩
  | failing reads fails =>
      refine .nothing fun target expression hassigns => ?_
      cases reads.symm.trans hassigns
      exact ⟨_, rfl⟩
  | plotted reads draws notes =>
      rw [List.filter_append, hnotes notes]
      exact hnothing reads nofun
  | skipped reads unbound notes =>
      rw [List.filter_append, hnotes notes]
      exact hnothing reads nofun

/-- No line is warned of but an assignment of arithmetic or of text that does not parse. -/
theorem Visit.Warranted.warns {visit : Visit} {warnings : List Event} (h : visit.Warranted warnings)
    {event : Event} (hevent : event ∈ warnings) : visit.Warns event := by
  cases h with
  | unbound reads _ =>
      obtain ⟨name, -, rfl⟩ := List.mem_map.mp hevent
      exact ⟨_, Or.inl ⟨_, name, reads, rfl⟩⟩
  | unparsable reads =>
      obtain rfl := List.mem_singleton.mp hevent
      exact ⟨_, Or.inr ⟨_, _, reads, rfl⟩⟩
  | nothing _ => cases hevent

/-! ### The lines that a run comes to -/

/-- The lines that a run comes to, up to the first that is faulty or fails. -/
def visits (run : Run) : List (Nat × List Char) → List Visit
  | [] => []
  | (number, raw) :: rest =>
      ⟨run, number, raw⟩ ::
        match run.takeAll (Script.readLine? (number, raw)).toList with
        | .ok next => next.visits rest
        | .error _ => []

/-- A run comes to a line in the state that the lines in front of it lead to. -/
theorem getElem?_visits (run next : Run) (before : List (Nat × List Char)) (number : Nat)
    (raw : List Char) (after : List (Nat × List Char)) :
    (run.visits (before ++ (number, raw) :: after))[before.length]? = some ⟨next, number, raw⟩ ↔
      run.takeAll (before.filterMap Script.readLine?) = .ok next := by
  induction before generalizing run with
  | nil => simp [visits, takeAll]
  | cons line before ih =>
      rw [takeAll_filterMap_cons, List.cons_append, visits, List.length_cons,
        List.getElem?_cons_succ]
      cases run.takeAll (Script.readLine? line).toList with
      | ok mid => exact ih mid
      | error e => simp

/-- **A trace is made up of the blocks of the lines that the run comes to.** -/
theorem traceLines_fst (run : Run) (numbered : List (Nat × List Char)) :
    (run.traceLines numbered).1 = ((run.visits numbered).map Visit.events).flatten := by
  induction numbered generalizing run with
  | nil => rfl
  | cons line rest ih =>
      obtain ⟨number, raw⟩ := line
      rw [traceLines, visits, List.map_cons, List.flatten_cons, Visit.events, Visit.reading,
        takeAll_readLine?]
      cases Line.parse number raw with
      | error e => simp
      | ok line? =>
          cases line? with
          | none => simp [ih]
          | some line =>
              cases htake : run.take line with
              | error e => simp [htake]
              | ok next => simp [htake, ih]

/-! ### Plots and results -/

/-- A line adds as many results as it is reported to draw. -/
theorem Visit.Reports.length_results {visit : Visit} {block : List Event}
    (h : visit.Reports block) {next : Run}
    (hnext : visit.run.takeAll (Script.readLine? (visit.number, visit.raw)).toList = .ok next) :
    next.results.length = visit.run.results.length + block.countP Event.isPlotted := by
  have hnotes {notices : List Event} (notes : ∀ event ∈ notices, event.IsNotice) :
      notices.countP Event.isPlotted = 0 := by
    refine List.countP_eq_zero.mpr fun event hevent => ?_
    cases notes event hevent <;> simp [Event.isPlotted]
  rw [takeAll_readLine?, ← Visit.reading] at hnext
  cases h with
  | faulty reads notes =>
      rw [reads] at hnext
      cases hnext
  | idle reads notes =>
      rw [reads] at hnext
      cases hnext
      rw [hnotes notes, Nat.add_zero]
  | declaration reads =>
      rw [reads] at hnext
      cases hnext
      rfl
  | arithmetic reads unbound =>
      rw [reads] at hnext
      cases hnext
      rw [List.countP_append, List.countP_map]
      simp [bind, Event.isPlotted, Function.comp_def]
  | invalid reads =>
      rw [reads] at hnext
      cases hnext
      rfl
  | indicator reads computes =>
      rw [reads] at hnext
      simp only [take, execute, Expression.evaluate, computes] at hnext
      cases hnext
      rfl
  | failing reads fails =>
      rw [reads] at hnext
      simp only [take, execute, Expression.evaluate, fails] at hnext
      cases hnext
  | plotted reads draws notes =>
      rw [reads] at hnext
      cases hnext
      rw [draws, List.countP_append, hnotes notes]
      simp [Event.isPlotted]
  | skipped reads unbound notes =>
      rw [reads] at hnext
      cases hnext
      rw [List.countP_append, hnotes notes]
      simp [Event.isPlotted, draw, unbound]

theorem length_results_of_reports {run final : Run} {numbered : List (Nat × List Char)}
    {blocks : List (List Event)} (h : List.Forall₂ Visit.Reports (run.visits numbered) blocks)
    (hfinal : run.takeAll (numbered.filterMap Script.readLine?) = .ok final) :
    final.results.length = run.results.length + blocks.flatten.countP Event.isPlotted := by
  induction numbered generalizing run blocks with
  | nil =>
      cases hfinal
      obtain rfl := List.forall₂_nil_left_iff.mp h
      rfl
  | cons line rest ih =>
      rw [takeAll_filterMap_cons] at hfinal
      rw [visits, List.forall₂_cons_left_iff] at h
      obtain ⟨block, blocks, hblock, hblocks, rfl⟩ := h
      cases hnext : run.takeAll (Script.readLine? line).toList with
      | error e =>
          rw [hnext] at hfinal
          cases hfinal
      | ok next =>
          rw [hnext] at hfinal hblocks
          rw [ih hblocks hfinal, hblock.length_results hnext, List.flatten_cons, List.countP_append,
            Nat.add_assoc]

/-- A trace is a block for each line that the run comes to, and at the end the failure of the run if
it fails. -/
theorem exists_trace_eq (script : List Char) (bars : List Bar) :
    ∃ ending,
      (trace script bars).1 = .running bars.length ::
        (((start bars).visits (Script.numbered script)).map Visit.events).flatten ++ ending ∧
      ((∃ final, (start bars).takeAll (Script.readLines script) = .ok final ∧
          outcome script bars = .success final.results ∧ ending = []) ∨
        ∃ e, outcome script bars = .failure e.message ∧ ending = [.failed e]) := by
  have hsnd : _ = (start bars).takeAll (Script.readLines script) :=
    traceLines_snd (start bars) (Script.numbered script)
  rw [← traceLines_fst, ← trace_snd, ← hsnd]
  unfold trace
  generalize (start bars).traceLines (Script.numbered script) = traced
  obtain ⟨events, result⟩ := traced
  cases result with
  | ok final => exact ⟨[], (List.append_nil _).symm, Or.inl ⟨final, rfl, rfl, rfl⟩⟩
  | error e => exact ⟨[.failed e], rfl, Or.inr ⟨e, rfl, rfl⟩⟩

/-- **No leniency is silent.**  Behind its two opening events, what is reported of a run over some
bars is a block for each line that the run comes to, which is in the state that the lines in front
of it lead to, and at the end its failure if it fails.  The warnings of the run are those in the
blocks of its lines, and each block has the warnings that its line gives cause for and no others.  A
run that gets through is reported to draw as often as it has results, and what it comes to does not
depend on its being reported. -/
theorem no_leniency_is_silent (bar : Bar) (others : List Bar) (symbol : String)
    (script : List Char) :
    let bars := bar :: others
    let reported := pipelineTrace (.ok bars) symbol script
    let visits := (start bars).visits (Script.numbered script)
    (∀ before number raw after run, Script.numbered script = before ++ (number, raw) :: after →
      (visits[before.length]? = some ⟨run, number, raw⟩ ↔
        (start bars).takeAll (before.filterMap Script.readLine?) = .ok run)) ∧
    (∃ blocks ending, List.Forall₂ Visit.Reports visits blocks ∧
      List.Forall₂ Visit.Warranted visits (blocks.map (List.filter Event.isWarning)) ∧
      reported.1 =
        .loadedBars symbol bars.length :: .running bars.length :: blocks.flatten ++ ending ∧
      reported.1.filter Event.isWarning = (blocks.map (List.filter Event.isWarning)).flatten ∧
      ((∃ results, outcome script bars = .success results ∧ ending = [] ∧
          results.length = reported.1.countP Event.isPlotted) ∨
        ∃ e, outcome script bars = .failure e.message ∧ ending = [.failed e])) ∧
    (∀ event ∈ reported.1, event.level = .warn → ∃ visit ∈ visits, visit.Warns event) ∧
    reported.2 = .ok (outcome script bars) ∧
    ∀ delivered, (pipelineTrace delivered symbol script).2 = pipeline delivered symbol script := by
  intro bars reported visits
  have hblocks : List.Forall₂ Visit.Reports visits (visits.map Visit.events) := by
    rw [List.forall₂_map_right_iff, List.forall₂_same]
    exact fun visit _ => visit.reports_events
  have hwarranted : List.Forall₂ Visit.Warranted visits
      ((visits.map Visit.events).map (List.filter Event.isWarning)) := by
    rw [List.map_map, List.forall₂_map_right_iff, List.forall₂_same]
    exact fun visit _ => visit.reports_events.warranted
  obtain ⟨ending, htrace, hending⟩ := exists_trace_eq script bars
  have hreported : reported.1 = .loadedBars symbol bars.length :: .running bars.length ::
      (visits.map Visit.events).flatten ++ ending :=
    congrArg (Event.loadedBars symbol bars.length :: ·) htrace
  have hquiet : ending.filter Event.isWarning = [] := by
    rcases hending with ⟨_, _, _, rfl⟩ | ⟨e, _, rfl⟩ <;> rfl
  have hwarnings : reported.1.filter Event.isWarning =
      ((visits.map Visit.events).map (List.filter Event.isWarning)).flatten := by
    rw [hreported, List.filter_append, hquiet, List.append_nil, ← List.filter_flatten]
    rfl
  refine ⟨?_, ⟨visits.map Visit.events, ending, hblocks, hwarranted, hreported, hwarnings, ?_⟩, ?_,
    pipelineTrace_snd _ _ _, fun delivered => pipelineTrace_snd _ _ _⟩
  · intro before number raw after run hnumbered
    simp only [visits]
    rw [hnumbered]
    exact getElem?_visits _ _ _ _ _ _
  · rcases hending with ⟨final, hfinal, houtcome, rfl⟩ | hfailure
    · refine Or.inl ⟨final.results, houtcome, rfl, ?_⟩
      rw [hreported, length_results_of_reports hblocks hfinal]
      simp [start, Event.isPlotted]
    · exact Or.inr hfailure
  · intro event hevent hwarn
    have hthere : event ∈ ((visits.map Visit.events).map (List.filter Event.isWarning)).flatten :=
      hwarnings ▸ List.mem_filter.mpr ⟨hevent, decide_eq_true hwarn⟩
    rw [List.map_map] at hthere
    obtain ⟨_, hmem, hevent⟩ := List.mem_flatten.mp hthere
    obtain ⟨visit, hvisit, rfl⟩ := List.mem_map.mp hmem
    exact ⟨visit, hvisit, visit.reports_events.warranted.warns hevent⟩

/-- Two names that are not bound are warned of once each, and then a text that does not parse.  The
plot of a name that is not bound is skipped without a warning. -/
theorem warnings_of_unbound_names_and_invalid_text :
    let bar : Bar := ⟨0, 1, 1, 1, 1, 1⟩
    let script := "x = a + b * a\ny = close +\nplot(z)\nplot(x)".toList
    let tree : Arithmetic := .binary .add (.symbol "a") (.binary .mul (.symbol "b") (.symbol "a"))
    let reported := pipelineTrace (.ok [bar]) "T" script
    reported.1.map (fun event => (event.level.text, event.message)) =
        [("INFO", "loaded bars"), ("INFO", "running script"),
          ("WARN", "unknown variable, series is undefined"),
          ("WARN", "unknown variable, series is undefined"), ("DEBUG", "assigned"),
          ("WARN", "expression does not parse, series is undefined"), ("DEBUG", "assigned"),
          ("DEBUG", "plot target not defined, skipping"), ("DEBUG", "plotted")] ∧
      (reported.1.filter Event.isWarning).map Event.fields =
        [[("variable", "a"), ("expression", "(a + (b * a))")],
          [("variable", "b"), ("expression", "(a + (b * a))")],
          [("expression", "close +"), ("error",
            "parse error at position 7: expected number, variable or '(', found end of input")]] ∧
      (∃ visit ∈ (start [bar]).visits (Script.numbered script),
        visit.Warns (.unknownVariable "b" tree)) ∧
      reported.2 = .ok (outcome script [bar]) := by
  intro bar script tree reported
  obtain ⟨-, -, hcause, houtcome, -⟩ := no_leniency_is_silent bar [] "T" script
  have hreported : .unknownVariable "b" tree ∈ reported.1.filter Event.isWarning := by
    decide +kernel
  have hwarns := hcause _ (List.mem_of_mem_filter hreported) rfl
  exact ⟨by decide +kernel, by decide +kernel, hwarns, houtcome⟩

end Run

end ChartScript
