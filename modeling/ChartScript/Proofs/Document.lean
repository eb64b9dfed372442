/-
Result documents survive the trip.

What a document says of an outcome is its structure, its texts and its times; a value is
said as far as a written number is read again, which `reread?` keeps apart.  Reading a
document gives the outcome with every value reread (`ofDocument?_document`), whichever way
it was written.  So the outcome itself comes back exactly if every value reads back as
itself.

The outcome of a run has only finite values, since a plot leaves out all others.  That is
why nothing in its document is null.
-/
import ChartScript.Document
import ChartScript.Proofs.Json.Number
import ChartScript.Proofs.Json.Reading
import ChartScript.Proofs.Run.Drawing

namespace ChartScript

/-! ### Values without anything absent -/

namespace Json

mutual

/-- Nothing in a value is null. -/
def HasNoNull : Json → Prop
  | .null => False
  | .bool _ => True
  | .number _ => True
  | .text _ => True
  | .list items => HaveNoNull items
  | .object members => MembersHaveNoNull members

/-- Nothing in some values is null. -/
def HaveNoNull : List Json → Prop
  | [] => True
  | item :: items => HasNoNull item ∧ HaveNoNull items

/-- Nothing in the values of some members is null. -/
def MembersHaveNoNull : List (Option String × Json) → Prop
  | [] => True
  | (_, value) :: members => HasNoNull value ∧ MembersHaveNoNull members

end

theorem haveNoNull_map {α : Type} {f : α → Json} {xs : List α} (h : ∀ x ∈ xs, HasNoNull (f x)) :
    HaveNoNull (xs.map f) := by
  induction xs with
  | nil => trivial
  | cons x xs ih =>
      exact ⟨h x List.mem_cons_self, ih fun y hy => h y (List.mem_cons_of_mem x hy)⟩

theorem areWritable_map {α : Type} {f : α → Json} (h : ∀ x, IsWritable (f x)) (xs : List α) :
    AreWritable (xs.map f) := by
  induction xs with
  | nil => trivial
  | cons x xs ih => exact ⟨h x, ih⟩

/-- Reading what has been written one by one. -/
theorem mapM_map_toJson {α β : Type} {f : α → Json} {read : Json → Option β} {g : α → Option β}
    {xs : List α} (h : ∀ x ∈ xs, read (f x) = g x) : (xs.map f).mapM read = xs.mapM g := by
  induction xs with
  | nil => rfl
  | cons x xs ih =>
      rw [List.map_cons, List.mapM_cons, List.mapM_cons, h x List.mem_cons_self,
        ih fun y hy => h y (List.mem_cons_of_mem x hy)]

theorem mapM_eq_some {α : Type} {f : α → Option α} {xs : List α} (h : ∀ x ∈ xs, f x = some x) :
    xs.mapM f = some xs := by
  induction xs with
  | nil => rfl
  | cons x xs ih =>
      rw [List.mapM_cons, h x List.mem_cons_self, ih fun y hy => h y (List.mem_cons_of_mem x hy)]
      rfl

/-- Values can be held exactly if each can. -/
theorem areHeld_map {α β : Type} {f : α → Json} {g : α → Option β} {depth : Nat} {xs : List α}
    (h : ∀ x ∈ xs, isHeld depth (f x) = (g x).isSome) :
    areHeld depth (xs.map f) = (xs.mapM g).isSome := by
  induction xs with
  | nil => rfl
  | cons x xs ih =>
      rw [List.map_cons, areHeld, h x List.mem_cons_self,
        ih fun y hy => h y (List.mem_cons_of_mem x hy), List.mapM_cons]
      cases g x with
      | none => rfl
      | some y => cases xs.mapM g <;> rfl

end Json

/-! ### What is read of a document -/

/-- What a number is read as once it has been written. -/
def reread? (x : Float) : Option Float :=
  (Layout.document.numeral x).toFloat?

-- Reading takes one floating-point step, so the last bit of a long numeral may go astray.
example : reread? 928.5714285714287 ≠ some 928.5714285714287 := by decide +kernel

/-- A point with its value reread. -/
def PlotPoint.reread? (point : PlotPoint) : Option PlotPoint := do
  let value ← ChartScript.reread? point.value
  return ⟨point.time, value⟩

/-- A plot with its values reread. -/
def PlotResult.reread? (plot : PlotResult) : Option PlotResult := do
  let data ← plot.data.mapM PlotPoint.reread?
  return ⟨plot.name, plot.color, data⟩

/-- An outcome with its values reread. -/
def Outcome.reread? : Outcome → Option Outcome
  | .success results => do
      let results ← results.mapM PlotResult.reread?
      return .success results
  | .failure message => some (.failure message)

/-- Every value of an outcome is finite. -/
def Outcome.IsFinite (outcome : Outcome) : Prop :=
  ∀ plot ∈ outcome.results, ∀ point ∈ plot.data, point.value.isFinite = true

/-- Every value of an outcome reads back as itself. -/
def Outcome.ReadsBack (outcome : Outcome) : Prop :=
  ∀ plot ∈ outcome.results, ∀ point ∈ plot.data, ChartScript.reread? point.value = some point.value

namespace PlotPoint

variable {point : PlotPoint}

theorem isWritable_toJson (point : PlotPoint) : point.toJson.IsWritable := by
  refine ⟨rfl, Numeral.isWritable_ofInt _, rfl, ?_, trivial⟩
  unfold numberDocument
  split
  · exact Layout.isWritable_numeral _ _
  · trivial

theorem hasNoNull_toJson (h : point.value.isFinite = true) : point.toJson.HasNoNull := by
  refine ⟨trivial, ?_, trivial⟩
  rw [numberDocument, if_pos h]
  trivial

theorem isHeld_toJson (h : point.value.isFinite = true) (depth : Nat) :
    point.toJson.isHeld (depth + 1) = point.reread?.isSome := by
  have hvalue : (numberDocument point.value).isHeld depth =
      (ChartScript.reread? point.value).isSome := by
    rw [numberDocument, if_pos h]
    rfl
  have htime : (Json.ofInt point.time.toInt).isHeld depth = true :=
    Numeral.isSome_toFloat?_ofInt point.time
  show (true && (Json.ofInt point.time.toInt).isHeld depth &&
    (true && (numberDocument point.value).isHeld depth && true)) = _
  rw [hvalue, htime, reread?]
  cases ChartScript.reread? point.value <;> rfl

theorem ofJson?_toJson (h : point.value.isFinite = true) :
    ofJson? point.toJson = point.reread? := by
  have hvalue : (numberDocument point.value).asFloat? = ChartScript.reread? point.value := by
    rw [numberDocument, if_pos h]
    rfl
  have htime : (Json.ofInt point.time.toInt).asInt64? = some point.time :=
    Numeral.toInt64?_ofInt point.time
  have hread : ofJson? point.toJson = (do
      return ⟨← (Json.ofInt point.time.toInt).asInt64?, ← (numberDocument point.value).asFloat?⟩) :=
    rfl
  rw [hread, htime, hvalue]
  rfl

end PlotPoint

namespace PlotResult

variable {plot : PlotResult}

theorem isWritable_toJson (plot : PlotResult) : plot.toJson.IsWritable :=
  ⟨rfl, rfl, rfl, rfl, rfl, Json.areWritable_map PlotPoint.isWritable_toJson plot.data, trivial⟩

theorem hasNoNull_toJson (h : ∀ point ∈ plot.data, point.value.isFinite = true) :
    plot.toJson.HasNoNull :=
  ⟨trivial, trivial, Json.haveNoNull_map fun point hp => PlotPoint.hasNoNull_toJson (h point hp),
    trivial⟩

theorem isHeld_toJson (h : ∀ point ∈ plot.data, point.value.isFinite = true) (depth : Nat) :
    plot.toJson.isHeld (depth + 3) = plot.reread?.isSome := by
  have hdata : Json.areHeld (depth + 1) (plot.data.map PlotPoint.toJson) =
      (plot.data.mapM PlotPoint.reread?).isSome :=
    Json.areHeld_map fun point hp => PlotPoint.isHeld_toJson (h point hp) depth
  show (true && true && (true && true && (true &&
    Json.areHeld (depth + 1) (plot.data.map PlotPoint.toJson) && true))) = _
  rw [hdata, reread?]
  cases plot.data.mapM PlotPoint.reread? <;> rfl

theorem ofJson?_toJson (h : ∀ point ∈ plot.data, point.value.isFinite = true) :
    ofJson? plot.toJson = plot.reread? := by
  have hread : ofJson? plot.toJson = (do
      return ⟨plot.name, plot.color,
        ← (plot.data.map PlotPoint.toJson).mapM PlotPoint.ofJson?⟩) := rfl
  rw [hread, Json.mapM_map_toJson fun point hp => PlotPoint.ofJson?_toJson (h point hp)]
  rfl

end PlotResult

namespace Outcome

variable {outcome : Outcome}

theorem isWritable_toJson (outcome : Outcome) : outcome.toJson.IsWritable := by
  cases outcome with
  | success results =>
      exact ⟨rfl, rfl, rfl, Json.areWritable_map PlotResult.isWritable_toJson results, trivial⟩
  | failure message => exact ⟨rfl, rfl, rfl, rfl, trivial⟩

theorem hasNoNull_toJson (h : outcome.IsFinite) : outcome.toJson.HasNoNull := by
  cases outcome with
  | success results =>
      exact ⟨trivial, Json.haveNoNull_map fun plot hp => PlotResult.hasNoNull_toJson (h plot hp),
        trivial⟩
  | failure message => exact ⟨trivial, trivial, trivial⟩

/-- The document of a finite outcome is read as the outcome with its values reread. -/
theorem ofJson?_toJson (h : outcome.IsFinite) : ofJson? outcome.toJson = outcome.reread? := by
  cases outcome with
  | failure message => rfl
  | success results =>
      have hheld : (success results).toJson.isHeld Json.depthLimit =
          (results.mapM PlotResult.reread?).isSome := by
        have hresults : Json.areHeld 125 (results.map PlotResult.toJson) =
            (results.mapM PlotResult.reread?).isSome :=
          Json.areHeld_map fun plot hp => PlotResult.isHeld_toJson (h plot hp) 122
        show (true && true && (true && Json.areHeld 125 (results.map PlotResult.toJson) && true)) = _
        rw [hresults]
        cases results.mapM PlotResult.reread? <;> rfl
      have hparts : (results.map PlotResult.toJson).mapM PlotResult.ofJson? =
          results.mapM PlotResult.reread? :=
        Json.mapM_map_toJson fun plot hp => PlotResult.ofJson?_toJson (h plot hp)
      unfold ofJson?
      rw [hheld]
      cases hreread : results.mapM PlotResult.reread? with
      | none => simp [reread?, hreread]
      | some reread =>
          rw [hreread] at hparts
          show (do return success (← (results.map PlotResult.toJson).mapM PlotResult.ofJson?)) = _
          rw [hparts, Outcome.reread?, hreread]

theorem reread?_of_readsBack (h : outcome.ReadsBack) : outcome.reread? = some outcome := by
  cases outcome with
  | failure message => rfl
  | success results =>
      have hplot : ∀ plot ∈ results, PlotResult.reread? plot = some plot := by
        intro plot hp
        have hpoint : ∀ point ∈ plot.data, PlotPoint.reread? point = some point := by
          intro point hpoint
          rw [PlotPoint.reread?, h plot hp point hpoint]
          rfl
        rw [PlotResult.reread?, Json.mapM_eq_some hpoint]
        rfl
      rw [reread?, Json.mapM_eq_some hplot]
      rfl

/-- Every outcome can be written. -/
theorem document?_eq (outcome : Outcome) (pretty : Bool) :
    outcome.document? pretty = .ok (outcome.document pretty) := by
  rw [document?, Json.write?_of_isWritable outcome.isWritable_toJson]
  rfl

/-- **A document is read as the value it was written for**, also with blanks behind it. -/
theorem parse?_document_append (outcome : Outcome) (pretty : Bool) {blanks : List Char}
    (hblanks : ∀ c ∈ blanks, Json.Token.isBlank c = true) :
    Json.parse? ((outcome.document pretty).toList ++ blanks) = some outcome.toJson := by
  rw [document, String.toList_ofList]
  exact Json.parse?_write outcome.isWritable_toJson pretty hblanks

theorem parse?_document (outcome : Outcome) (pretty : Bool) :
    Json.parse? (outcome.document pretty).toList = some outcome.toJson := by
  have hparse : Json.parse? ((outcome.document pretty).toList ++ []) = some outcome.toJson :=
    outcome.parse?_document_append pretty (by simp)
  rwa [List.append_nil] at hparse

/-- The document of a finite outcome, written either way, is read as the outcome with its
values reread. -/
theorem ofDocument?_document (h : outcome.IsFinite) (pretty : Bool) :
    ofDocument? (outcome.document pretty) = outcome.reread? := by
  rw [ofDocument?, outcome.parse?_document pretty]
  exact ofJson?_toJson h

end Outcome

namespace Run

/-- **The outcome of a run is finite**, whatever values its series hold. -/
theorem isFinite_outcome (script : List Char) (bars : List Bar) :
    (outcome script bars).IsFinite := by
  cases hrun : (start bars).takeAll (Script.readLines script) with
  | error e =>
      rw [outcome_of_takeAll_eq_error hrun]
      intro plot hplot
      exact absurd hplot List.not_mem_nil
  | ok final =>
      rw [outcome_of_takeAll_eq_ok hrun]
      intro plot hplot point hpoint
      obtain ⟨drawing, -, rfl⟩ := List.mem_map.mp hplot
      obtain ⟨⟨bar, value⟩, -, hvalue⟩ := List.mem_filterMap.mp hpoint
      replace hvalue : PlotPoint.ofBar? bar value = some point := hvalue
      unfold PlotPoint.ofBar? at hvalue
      split at hvalue
      · rename_i hvalueFinite
        cases hvalue
        exact hvalueFinite
      · cases hvalue

/--
**Result documents survive the trip.**  Take the outcome of any script over any bars, and
write it either way, which does not fail.  The text is read as a value in which nothing is
null, and as an outcome with the same status, plots, names, colors, times and message, and
with each value as it is read back once written; so it makes no difference which way it was
written.  If the values read back as themselves, the outcome comes back as it was.
-/
theorem ofDocument?_document_outcome (script : List Char) (bars : List Bar) (pretty : Bool) :
    (outcome script bars).IsFinite ∧
    ∃ text, (outcome script bars).document? pretty = .ok text ∧
      (∃ value, Json.parse? text.toList = some value ∧ value.HasNoNull) ∧
      Outcome.ofDocument? text = (outcome script bars).reread? ∧
      ((outcome script bars).ReadsBack →
        Outcome.ofDocument? text = some (outcome script bars)) := by
  have hfinite : (outcome script bars).IsFinite := isFinite_outcome script bars
  have hread : Outcome.ofDocument? ((outcome script bars).document pretty) =
      (outcome script bars).reread? := Outcome.ofDocument?_document hfinite pretty
  refine ⟨hfinite, (outcome script bars).document pretty, Outcome.document?_eq _ pretty, ?_,
    hread, ?_⟩
  · exact ⟨_, (outcome script bars).parse?_document pretty, Outcome.hasNoNull_toJson hfinite⟩
  · intro hreads
    rw [hread, Outcome.reread?_of_readsBack hreads]

/-- A value that overflows is left out, titles are escaped, and the document brings back the
rest. -/
theorem ofDocument?_document_overflowing :
    let text := "x = close * 2\nplot(x, \"a\\b é\")\nplot(close, 'it\tis')"
    let bars : List Bar :=
      [⟨60, 1.0, 2.0, 0.5, 1.5, 10.0⟩, ⟨120, 1.0, 2.0, 0.5, 1.7e308, 10.0⟩]
    let shown : Outcome := .success
      [⟨"a\\b é", "#2962FF", [⟨60, 3.0⟩]⟩, ⟨"it\tis", "#2962FF", [⟨60, 1.5⟩, ⟨120, 1.7e308⟩]⟩]
    outcome text.toList bars = shown ∧ shown.ReadsBack ∧
      ∃ document, shown.document? true = .ok document ∧
        Outcome.ofDocument? document = some shown := by
  intro text bars shown
  have hrun : outcome text.toList bars = shown := by decide +kernel
  have hreads : shown.ReadsBack := by
    unfold Outcome.ReadsBack
    decide +kernel
  obtain ⟨-, document, hdocument, -, -, hback⟩ := ofDocument?_document_outcome text.toList bars true
  rw [hrun] at hdocument hback
  exact ⟨hrun, hreads, document, hdocument, hback hreads⟩

end Run

end ChartScript
