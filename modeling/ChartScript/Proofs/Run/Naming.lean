/-
Naming a part of an expression in a script.

A row can assign a part of an expression to a name, and the row below it use the name; or one
row can write the part out in parentheses, wherever the name would stand.  Either way the
target of the last row gets the same series.  The text that is written out is the expression
with the name replaced, and at every bar that has the value that the name gives it.
-/
import ChartScript.Proofs.Run.Frame
import ChartScript.Proofs.Run.Layout
import ChartScript.Proofs.Script.Assignment

namespace ChartScript

open Text

namespace Run

/-- A row that assigns arithmetic binds its target. -/
theorem takeAll_assigns {row target text : List Char} {e : Arithmetic}
    (h : Line.Assigns row target text e) (run : Run) (number : Nat) (rest : List (List Char)) :
    run.takeAll (Script.readRows number (row :: rest)) =
      (run.bind (String.ofList target) (e.evaluate run.symbols)).takeAll
        (Script.readRows (number + 1) rest) := by
  rw [takeAll_statement (Line.parse_of_assigns h number)]
  rfl

/-- Binding a name and using it, or writing out what it stands for, leads to runs that agree
on the target and on every name but the first. -/
theorem bind_replace_agree (run : Run) (x y : String) (inner outer : Arithmetic) :
    Agree (fun name => name ≠ x ∨ y = name)
      ((run.bind x (inner.evaluate run.symbols)).bind y
        (outer.evaluate (run.symbols.insert x (inner.evaluate run.symbols))))
      (run.bind y ((outer.replace x inner).evaluate run.symbols)) := by
  rw [Arithmetic.evaluate_replace]
  exact ⟨rfl, (run.symbols.insert_agree x _).insert y _, rfl⟩

/-- Two rows of which the second may read the target of the first give their last target the
series that one row gives it with the expressions put together. -/
theorem takeAll_of_replaced {above : List (List Char)} {first second row : List Char}
    {x y innerText outerText text : List Char} {inner outer : Arithmetic} {bars : List Bar}
    {run : Run} (hrows : ∀ r ∈ above ++ [first, second], '\n' ∉ r) (hrow : '\n' ∉ row)
    (hfirst : Line.Assigns first x innerText inner)
    (hsecond : Line.Assigns second y outerText outer)
    (hassigns : Line.Assigns row y text (outer.replace (String.ofList x) inner))
    (habove : (start bars).takeAll (Script.readLines (ofRows above)) = .ok run) :
    ∃ named direct series,
      (start bars).takeAll (Script.readLines (ofRows (above ++ [first, second]))) = .ok named ∧
      (start bars).takeAll (Script.readLines (ofRows (above ++ [row]))) = .ok direct ∧
      named.symbols.get? (String.ofList y) = some series ∧
      direct.symbols.get? (String.ofList y) = some series ∧
      Agree (fun name => name ≠ String.ofList x ∨ String.ofList y = name) named direct := by
  have hrows' : ∀ r ∈ above ++ [row], '\n' ∉ r :=
    List.forall_mem_append.mpr
      ⟨(List.forall_mem_append.mp hrows).1, List.forall_mem_singleton.mpr hrow⟩
  have hagree := bind_replace_agree run (String.ofList x) (String.ofList y) inner outer
  have hdirect : (run.bind (String.ofList y)
      ((outer.replace (String.ofList x) inner).evaluate run.symbols)).symbols.get?
        (String.ofList y) = some ((outer.replace (String.ofList x) inner).evaluate run.symbols) :=
    SymbolTable.get?_insert_self _ _ _
  refine ⟨_, _, _, ?_, ?_, ?_, hdirect, hagree⟩
  · rw [takeAll_ofRows_append hrows, habove]
    simp only [takeAll_assigns hfirst, takeAll_assigns hsecond]
    rfl
  · rw [takeAll_ofRows_append hrows', habove]
    simp only [takeAll_assigns hassigns]
    rfl
  · rw [hagree.symbols.get? _ (Or.inr rfl), hdirect]

/--
**Naming a part of an expression is transparent.**  Over any table, an expression in which a
name is bound to the series of another has, at every bar, the value of the expression with
the other one in place of the name; also where one of them fails, and also where the other
one reads the name itself.  So in a script, a row that assigns to a name and a row below it
that uses the name give the target of the second the series that one row gives it in which
the first expression is written, in parentheses, in place of the name.
-/
theorem naming_is_transparent :
    (∀ (table : SymbolTable) (x : String) (inner outer : Arithmetic),
      (∀ index < table.barCount,
        outer.valueAt (table.insert x (inner.evaluate table)) index =
          (outer.replace x inner).valueAt table index) ∧
      outer.evaluate (table.insert x (inner.evaluate table)) =
        (outer.replace x inner).evaluate table) ∧
    ∀ (above : List (List Char)) (first second x y innerText outerText : List Char)
      (inner outer : Arithmetic) (bars : List Bar) (run : Run),
      (∀ row ∈ above ++ [first, second], '\n' ∉ row) →
      Line.Assigns first x innerText inner → Line.Assigns second y outerText outer →
      (start bars).takeAll (Script.readLines (ofRows above)) = .ok run →
      let text := Arithmetic.replaceText (String.ofList x) innerText outerText
      ('\n' ∉ Line.written y text ∧ Line.form (Line.written y text) = .assignment y text) ∧
      ∀ row, '\n' ∉ row → Line.form row = .assignment y text →
        ∃ named direct series,
          (start bars).takeAll (Script.readLines (ofRows (above ++ [first, second]))) = .ok named ∧
          (start bars).takeAll (Script.readLines (ofRows (above ++ [row]))) = .ok direct ∧
          named.symbols.get? (String.ofList y) = some series ∧
          direct.symbols.get? (String.ofList y) = some series ∧
          Agree (fun name => name ≠ String.ofList x ∨ String.ofList y = name) named direct := by
  refine ⟨fun table x inner outer => ⟨fun index hindex =>
    Arithmetic.valueAt_replace hindex x inner outer,
    Arithmetic.evaluate_replace table x inner outer⟩, ?_⟩
  intro above first second x y innerText outerText inner outer bars run hrows hfirst hsecond
    habove text
  have hwritten : Line.Assigns (Line.written y text) y text
      (outer.replace (String.ofList x) inner) := Line.assigns_replaced hfirst hsecond
  refine ⟨⟨Line.newline_not_mem_written hfirst.form hsecond.form (hrows first (by simp))
    (hrows second (by simp)), hwritten.form⟩, ?_⟩
  intro row hrow hform
  exact takeAll_of_replaced hrows hrow hfirst hsecond ⟨hform, hwritten.parse⟩ habove

/-- A name that its own expression reads can be written out, also over a bar where that
makes a divisor zero. -/
theorem naming_of_divisor_is_transparent :
    let above := ["d = open".toList]
    let first := "d = close - d".toList
    let second := "y = 1 / d".toList
    let row := "y = 1 / (close - d) // written out".toList
    let bars : List Bar := [⟨60, 1.0, 2.0, 0.5, 1.5, 10.0⟩, ⟨120, 1.5, 2.0, 1.0, 1.5, 8.0⟩]
    ∃ named direct series,
      (start bars).takeAll (Script.readLines (ofRows (above ++ [first, second]))) = .ok named ∧
      (start bars).takeAll (Script.readLines (ofRows (above ++ [row]))) = .ok direct ∧
      named.symbols.get? "y" = some series ∧ direct.symbols.get? "y" = some series := by
  intro above first second row bars
  have hfirst : Line.Assigns first ['d'] "close - d".toList
      (.binary .sub (.symbol "close") (.symbol "d")) := ⟨by decide +kernel, by decide +kernel⟩
  have hsecond : Line.Assigns second ['y'] "1 / d".toList
      (.binary .div (.number 1) (.symbol "d")) := ⟨by decide +kernel, by decide +kernel⟩
  have hform : Line.form row =
      .assignment ['y'] (Arithmetic.replaceText "d" "close - d".toList "1 / d".toList) := by
    decide +kernel
  cases habove : (start bars).takeAll (Script.readLines (ofRows above)) with
  | error e =>
      have hok : ((start bars).takeAll (Script.readLines (ofRows above))).isOk = true := by
        decide +kernel
      rw [habove] at hok
      cases hok
  | ok run =>
      obtain ⟨-, hrows⟩ := naming_is_transparent.2 above first second ['d'] ['y'] _ _ _ _ bars run
        (by decide) hfirst hsecond habove
      obtain ⟨named, direct, series, hnamed, hdirect, hseries, hseries', -⟩ :=
        hrows row (by decide) hform
      exact ⟨named, direct, series, hnamed, hdirect, hseries, hseries'⟩

end Run

end ChartScript
