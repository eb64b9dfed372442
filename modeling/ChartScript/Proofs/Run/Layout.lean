/-
The layout of a script does not matter.

A run asks of a row only what it is read as.  Blanks at the ends of rows, and carriage returns
in front of line feeds, leave that as it is.  An idle row adds at most a declaration, which a
run passes over, and moves the rows below it down by one; a run over rows with other numbers
is the same run, and if it fails it does so on the line with the other number.
-/
import ChartScript.Proofs.Run.Agreement
import ChartScript.Proofs.Script.Rows

namespace ChartScript

open Text

namespace Run

variable {run : Run}

/-! ### Runs over other numbers -/

theorem execute_renumber (f : Nat → Nat) (run : Run) (s : Statement) :
    run.execute (s.renumber f) = (run.execute s).mapError (ScriptError.renumber f) := by
  simp only [execute, Statement.renumber]
  cases s.action with
  | plot plot => rfl
  | assign target expression =>
      dsimp only
      cases expression.evaluate run.symbols <;> rfl

theorem take_renumber (f : Nat → Nat) (run : Run) (line : Line) :
    run.take (line.renumber f) = (run.take line).mapError (ScriptError.renumber f) := by
  cases line with
  | declaration title => rfl
  | statement s => exact execute_renumber f run s

/-- **A run over lines with other numbers fails with other numbers.** -/
theorem takeAll_renumber (f : Nat → Nat) (run : Run) (lines : List (Except ScriptError Line)) :
    run.takeAll (lines.map (Script.renumber f)) =
      (run.takeAll lines).mapError (ScriptError.renumber f) := by
  induction lines generalizing run with
  | nil => rfl
  | cons item rest ih =>
      cases item with
      | error e => rfl
      | ok line =>
          simp only [List.map_cons, Script.renumber, takeAll, take_renumber]
          cases run.take line with
          | error e => rfl
          | ok next => exact ih next

/-- A run passes over declarations. -/
theorem takeAll_declared (run : Run) (titles : List (Option String)) :
    run.takeAll (titles.map Script.declared) = .ok run := by
  induction titles with
  | nil => rfl
  | cons title rest ih => exact ih

/-! ### Rows one by one -/

/-- A script goes on from the state that its first rows lead to. -/
theorem takeAll_ofRows_append {above rest : List (List Char)}
    (h : ∀ row ∈ above ++ rest, '\n' ∉ row) (bars : List Bar) :
    (start bars).takeAll (Script.readLines (ofRows (above ++ rest))) =
      match (start bars).takeAll (Script.readLines (ofRows above)) with
      | .ok run => run.takeAll (Script.readRows (above.length + 1) rest)
      | .error e => .error e := by
  have habove := (List.forall_mem_append.mp h).1
  rw [Script.readLines_ofRows h, Script.readLines_ofRows habove, Script.readRows_append,
    Nat.add_comm 1]
  exact takeAll_append _ _ _

/-- A row that says something is executed. -/
theorem takeAll_statement {number : Nat} {row : List Char} {s : Statement}
    (h : Line.parse number row = .ok (some (.statement s))) (run : Run)
    (rest : List (List Char)) :
    run.takeAll (Script.readRows number (row :: rest)) =
      match run.execute s with
      | .ok next => next.takeAll (Script.readRows (number + 1) rest)
      | .error e => .error e := by
  rw [Script.readRows_cons, Script.readLine?, h]
  rfl

/-- Idle rows leave a run where it is. -/
theorem takeAll_idle {rows : List (List Char)} (h : ∀ row ∈ rows, (Line.form row).IsIdle)
    (run : Run) (number : Nat) (rest : List (List Char)) :
    run.takeAll (Script.readRows number (rows ++ rest)) =
      run.takeAll (Script.readRows (number + rows.length) rest) := by
  obtain ⟨titles, htitles⟩ := Script.readRows_of_isIdle h number
  rw [Script.readRows_append, htitles, takeAll_append, takeAll_declared]

/-! ### An idle row more -/

variable {above below : List (List Char)} {new : List Char}

/-- An idle row does to a run what its number does to the rows below it. -/
theorem plots_insert (hrows : ∀ row ∈ above ++ below, '\n' ∉ row) (hnew : '\n' ∉ new)
    (hidle : (Line.form new).IsIdle) (bars : List Bar) :
    plots (ofRows (above ++ new :: below)) bars =
      (plots (ofRows (above ++ below)) bars).mapError
        (ScriptError.renumber (Script.pushed (above.length + 1))) := by
  obtain ⟨before, after, titles, hold, hinserted⟩ := Script.readLines_insert hrows hnew hidle
  rw [plots_eq_map, plots_eq_map, hold, hinserted, takeAll_append, takeAll_renumber,
    takeAll_append]
  cases (start bars).takeAll before with
  | error e => rfl
  | ok mid =>
      have hbelow : mid.takeAll (titles.map Script.declared ++
          after.map (Script.renumber (Script.pushed (above.length + 1)))) =
          (mid.takeAll after).mapError
            (ScriptError.renumber (Script.pushed (above.length + 1))) := by
        rw [takeAll_append, takeAll_declared]
        exact takeAll_renumber _ mid after
      simp only [Except.mapError, hbelow]
      cases mid.takeAll after <;> rfl

/-- An idle row gives the statements below it other numbers. -/
theorem statements_insert (hrows : ∀ row ∈ above ++ below, '\n' ∉ row) (hnew : '\n' ∉ new)
    (hidle : (Line.form new).IsIdle) :
    (Script.parse (ofRows (above ++ new :: below))).map Script.statements =
      (((Script.parse (ofRows (above ++ below))).map Script.statements).map
        (List.map (Statement.renumber (Script.pushed (above.length + 1))))).mapError
        (ScriptError.renumber (Script.pushed (above.length + 1))) := by
  obtain ⟨before, after, titles, hold, hinserted⟩ := Script.readLines_insert hrows hnew hidle
  rw [Script.parse_map_statements, Script.parse_map_statements, hold, hinserted,
    Script.gather_declared, ← List.map_append, Script.gather_renumber]

/-! ### The layout of a script -/

/-- Scripts whose lines are read alike are the same to a run and to a reader. -/
theorem plots_and_parse_of_readLines_eq {text text' : List Char}
    (h : Script.readLines text' = Script.readLines text) (bars : List Bar) :
    plots text' bars = plots text bars ∧ Script.parse text' = Script.parse text := by
  refine ⟨?_, ?_⟩
  · rw [plots_eq_map, plots_eq_map, h]
  · rw [Script.parse, Script.parse, h]

/--
**The layout of a script does not matter.**  Put in an idle row anywhere: the plots stay as
they are, and an error stays the same error, on the next line if its line is at the new row or
below it; and the statements of the script move in the same way.  Put blanks in front of any
rows or behind them, or end lines with a carriage return and a line feed: plots, errors,
their lines and all that the script is read as stay as they are.
-/
theorem plots_independent_of_layout (rows : List (List Char)) (hrows : ∀ row ∈ rows, '\n' ∉ row)
    (bars : List Bar) :
    (∀ above below new, rows = above ++ below → '\n' ∉ new → (Line.form new).IsIdle →
      let moved := Script.pushed (above.length + 1)
      plots (ofRows (above ++ new :: below)) bars =
          (plots (ofRows rows) bars).mapError (ScriptError.renumber moved) ∧
        (Script.parse (ofRows (above ++ new :: below))).map Script.statements =
          (((Script.parse (ofRows rows)).map Script.statements).map
            (List.map (Statement.renumber moved))).mapError (ScriptError.renumber moved)) ∧
    (∀ padded, List.Forall₂ Pads rows padded →
      plots (ofRows padded) bars = plots (ofRows rows) bars ∧
        Script.parse (ofRows padded) = Script.parse (ofRows rows)) ∧
    plots (['\r', '\n'].intercalate rows) bars = plots (ofRows rows) bars ∧
      Script.parse (['\r', '\n'].intercalate rows) = Script.parse (ofRows rows) := by
  refine ⟨?_, ?_, ?_⟩
  · rintro above below new rfl hnew hidle
    exact ⟨plots_insert hrows hnew hidle bars, statements_insert hrows hnew hidle⟩
  · intro padded hpads
    exact plots_and_parse_of_readLines_eq (Script.readLines_ofRows_of_pads hpads hrows) bars
  · obtain ⟨padded, hpads, hreturns⟩ := exists_pads_of_returns rows
    rw [hreturns]
    exact plots_and_parse_of_readLines_eq (Script.readLines_ofRows_of_pads hpads hrows) bars

/-- A declaration between the lines moves an error below it down by one, and carriage returns
leave it where it is. -/
theorem plots_independent_of_layout_below_declaration :
    let rows := ["x = close / 2", "plot(x, 'it')", "y = ta.sma(z, 2)"].map String.toList
    let new := "indicator('T') // it".toList
    let bars : List Bar := [⟨60, 1.0, 2.0, 0.5, 1.5, 10.0⟩]
    let fault : ScriptFault := .undefinedVariable "z" (.sma "z" 2)
    (∀ row ∈ rows, '\n' ∉ row) ∧ '\n' ∉ new ∧ (Line.form new).IsIdle ∧
      plots (ofRows rows) bars = .error ⟨3, fault⟩ ∧
      plots (ofRows (rows.take 1 ++ new :: rows.drop 1)) bars = .error ⟨4, fault⟩ ∧
      plots (['\r', '\n'].intercalate rows) bars = .error ⟨3, fault⟩ := by
  intro rows new bars fault
  have hrows : ∀ row ∈ rows, '\n' ∉ row := by decide
  have hnew : '\n' ∉ new := by decide
  have hidle : (Line.form new).IsIdle := by decide +kernel
  have hplots : plots (ofRows rows) bars = .error ⟨3, fault⟩ := by decide +kernel
  obtain ⟨hinsert, -, hreturns, -⟩ := plots_independent_of_layout rows hrows bars
  have hmoved := (hinsert (rows.take 1) (rows.drop 1) new rfl hnew hidle).1
  rw [hplots] at hmoved hreturns
  exact ⟨hrows, hnew, hidle, hplots, hmoved, hreturns⟩

end Run

end ChartScript
