/-
Records that are written without quotes.

Where no field has a comma, a quote or the end of a line in it, a record is a line: its fields
with commas between them.  Lines may end in any of the three ways, and the last one need not.
`fields_records` shows that the reader finds the records again.  Its state is followed by
`Holds`, which says what has been read of a record so far.
-/
import ChartScript.Csv

namespace ChartScript.Csv

/-- A character that stands for itself wherever it is: none that separates or quotes, and no
byte order mark. -/
def isPlain (c : Char) : Bool :=
  c != ',' && c != '\x22' && !Reader.isLineEnd c && c.toNat != 0xFEFF

/-- Some fields with commas between them. -/
def line : List (List Char) → List Char
  | [] => []
  | [field] => field
  | field :: next :: fields => field ++ ',' :: line (next :: fields)

/-- An end of a line. -/
inductive IsLineEnd : List Char → Prop where
  | feed : IsLineEnd ['\n']
  | carriage : IsLineEnd ['\r']
  | both : IsLineEnd ['\r', '\n']

/-- A text that has some records as its lines. -/
inductive IsText : List (List (List Char)) → List Char → Prop where
  | none : IsText [] []
  | last (fields : List (List Char)) : IsText [fields] (line fields)
  | more (fields : List (List Char)) {lineEnd cs : List Char} {records : List (List (List Char))}
      (ends : IsLineEnd lineEnd) (rest : IsText records cs) :
      IsText (fields :: records) (line fields ++ (lineEnd ++ cs))

/-- A record that needs no quotes, and a comma, so that its line is not empty. -/
structure IsUnquoted (fields : List (List Char)) : Prop where
  several : 2 ≤ fields.length
  plain : ∀ field ∈ fields, ∀ c ∈ field, isPlain c = true

namespace Reader

/-- Outside quotes, with some fields and a part of the next one read. -/
structure Holds (r : Reader) (fields : List (List Char)) (field : List Char) : Prop where
  quoted : r.mode ≠ .quoted
  afterQuote : r.mode ≠ .afterQuote
  fields : r.fields = fields.reverse
  field : r.field = field.reverse

/-- Within a record. -/
def IsInside (r : Reader) : Prop :=
  r.mode = .fieldStart ∨ r.mode = .plain

/-- In front of a record. -/
structure IsFresh (r : Reader) : Prop where
  mode : r.mode = .between ∨ r.mode = .afterReturn
  fields : r.fields = []
  field : r.field = []

variable {r : Reader} {fields : List (List Char)} {field : List Char} {c : Char}

theorem IsFresh.holds (h : r.IsFresh) : r.Holds [] [] := by
  obtain ⟨hmode, hfields, hfield⟩ := h
  refine ⟨?_, ?_, hfields, hfield⟩
  · rcases hmode with hmode | hmode <;> rw [hmode] <;> decide
  · rcases hmode with hmode | hmode <;> rw [hmode] <;> decide

/-- Outside quotes only a quote is special, and in front of a record the end of a line. -/
theorem Holds.next_eq (h : r.Holds fields field) (hquote : c ≠ '\x22')
    (hend : isLineEnd c = false ∨ r.IsInside) : r.next c = (r.count c).readOutside c := by
  have hmode : (r.count c).mode = r.mode := rfl
  have hline : ¬r.IsInside → isLineEnd c = false := fun hout => hend.resolve_right hout
  unfold next readFieldStart
  cases hr : r.mode with
  | between => simp [hmode, hr, hquote, hline (by simp [IsInside, hr])]
  | afterReturn => simp [hmode, hr, hquote, hline (by simp [IsInside, hr])]
  | fieldStart => simp [hmode, hr, hquote]
  | plain => simp [hmode, hr]
  | quoted => exact absurd hr h.quoted
  | afterQuote => exact absurd hr h.afterQuote

theorem records_cons_of_none {r' : Reader} {rest : List Char} (h : r.next c = (none, r')) :
    r.records (c :: rest) = r'.records rest := by
  rw [records, h]

theorem records_cons_of_some {r' : Reader} {record : Record} {rest : List Char}
    (h : r.next c = (some record, r')) : r.records (c :: rest) = record :: r'.records rest := by
  rw [records, h]

/-- A plain character goes into the field. -/
theorem Holds.plain (h : r.Holds fields field) (hc : isPlain c = true) (rest : List Char) :
    ∃ r' : Reader, r.records (c :: rest) = r'.records rest ∧ r'.Holds fields (field ++ [c]) ∧
      r'.IsInside := by
  simp only [isPlain, Bool.and_eq_true, bne_iff_ne, Bool.not_eq_true'] at hc
  obtain ⟨⟨⟨hcomma, hquote⟩, hend⟩, -⟩ := hc
  have hstep : r.next c = (none, (r.count c).put .plain c) := by
    rw [h.next_eq hquote (Or.inl hend)]
    simp [readOutside, hcomma, hend]
  refine ⟨_, records_cons_of_none hstep, ⟨by simp [put], by simp [put], h.fields, ?_⟩, Or.inr rfl⟩
  show c :: r.field = (field ++ [c]).reverse
  rw [h.field, List.reverse_append]
  rfl

/-- Plain characters go into the field one after the other. -/
theorem Holds.plains (h : r.Holds fields field) {cs : List Char}
    (hcs : ∀ c ∈ cs, isPlain c = true) (rest : List Char) :
    ∃ r' : Reader, r.records (cs ++ rest) = r'.records rest ∧ r'.Holds fields (field ++ cs) ∧
      (r.IsInside → r'.IsInside) := by
  induction cs generalizing r field with
  | nil => exact ⟨r, rfl, by rwa [List.append_nil], fun hinside => hinside⟩
  | cons c cs ih =>
      obtain ⟨hc, hrest⟩ := List.forall_mem_cons.mp hcs
      obtain ⟨next, hnext, hholds, hinside⟩ := h.plain hc (cs ++ rest)
      obtain ⟨r', hr', hholds', hinside'⟩ := ih hholds hrest
      rw [List.append_assoc] at hholds'
      exact ⟨r', hnext.trans hr', hholds', fun _ => hinside' hinside⟩

/-- A comma ends the field. -/
theorem Holds.comma (h : r.Holds fields field) (rest : List Char) :
    ∃ r' : Reader, r.records (',' :: rest) = r'.records rest ∧ r'.Holds (fields ++ [field]) [] ∧
      r'.IsInside := by
  have hstep : r.next ',' = (none, (r.count ',').endField) := by
    rw [h.next_eq (by decide) (Or.inl (by decide))]
    rfl
  refine ⟨_, records_cons_of_none hstep, ⟨by simp [endField], by simp [endField], ?_, rfl⟩,
    Or.inl rfl⟩
  show r.field.reverse :: r.fields = (fields ++ [field]).reverse
  rw [h.field, h.fields, List.reverse_reverse, List.reverse_append]
  rfl

/-- The fields of a line are read up to its end. -/
theorem Holds.line (h : r.Holds fields []) {others : List (List Char)} (hne : others ≠ [])
    (hothers : ∀ field ∈ others, ∀ c ∈ field, isPlain c = true) (rest : List Char) :
    ∃ (r' : Reader) (before : List (List Char)) (last : List Char),
      r.records (Csv.line others ++ rest) = r'.records rest ∧ r'.Holds before last ∧
      before ++ [last] = fields ++ others ∧ (r.IsInside ∨ 2 ≤ others.length → r'.IsInside) := by
  induction others generalizing r fields with
  | nil => exact absurd rfl hne
  | cons field others ih =>
      obtain ⟨hfield, hlater⟩ := List.forall_mem_cons.mp hothers
      cases others with
      | nil =>
          obtain ⟨r', hr', hholds, hinside⟩ := h.plains hfield rest
          rw [List.nil_append] at hholds
          refine ⟨r', fields, field, hr', hholds, rfl, fun hor => hinside ?_⟩
          exact hor.resolve_right (by simp)
      | cons next others =>
          obtain ⟨r₁, hr₁, hholds₁, -⟩ :=
            h.plains hfield (',' :: (Csv.line (next :: others) ++ rest))
          rw [List.nil_append] at hholds₁
          obtain ⟨r₂, hr₂, hholds₂, hinside₂⟩ := hholds₁.comma (Csv.line (next :: others) ++ rest)
          obtain ⟨r', before, last, hr', hholds', hsplit, hinside'⟩ :=
            ih hholds₂ (List.cons_ne_nil next others) hlater
          refine ⟨r', before, last, ?_, hholds', ?_, fun _ => hinside' (Or.inl hinside₂)⟩
          · rw [Csv.line, List.append_assoc, List.cons_append, hr₁, hr₂, hr']
          · rw [hsplit, List.append_assoc]
            rfl

/-- The record that is complete at the end of a line. -/
theorem Holds.fields_record (h : r.Holds fields field) : r.record.fields = fields ++ [field] := by
  show (r.field.reverse :: r.fields).reverse = _
  rw [h.field, h.fields, List.reverse_reverse, List.reverse_cons, List.reverse_reverse]

/-- The end of a line completes a record. -/
theorem Holds.lineEnd (h : r.Holds fields field) (hinside : r.IsInside) {lineEnd : List Char}
    (hend : IsLineEnd lineEnd) (rest : List Char) :
    ∃ (record : Record) (r' : Reader),
      r.records (lineEnd ++ rest) = record :: r'.records rest ∧
      record.fields = fields ++ [field] ∧ r'.IsFresh := by
  have hcount (c : Char) : (r.count c).record.fields = fields ++ [field] := h.fields_record
  have hcarriage : r.next '\r' =
      (some (r.count '\r').record, (r.count '\r').nextRecord .afterReturn) := by
    rw [h.next_eq (by decide) (Or.inr hinside)]
    rfl
  cases hend with
  | feed =>
      have hstep : r.next '\n' =
          (some (r.count '\n').record, (r.count '\n').nextRecord .between) := by
        rw [h.next_eq (by decide) (Or.inr hinside)]
        rfl
      exact ⟨_, _, records_cons_of_some hstep, hcount '\n', Or.inl rfl, rfl, rfl⟩
  | carriage =>
      exact ⟨_, _, records_cons_of_some hcarriage, hcount '\r', Or.inr rfl, rfl, rfl⟩
  | both =>
      -- The line feed is read in front of the next record, where it means nothing.
      let r' : Reader :=
        { ((r.count '\r').nextRecord .afterReturn).count '\n' with mode := .between }
      have hfeed : ((r.count '\r').nextRecord .afterReturn).next '\n' = (none, r') := rfl
      refine ⟨_, r', ?_, hcount '\r', Or.inl rfl, rfl, rfl⟩
      exact (records_cons_of_some hcarriage).trans (congrArg _ (records_cons_of_none hfeed))

/-- The end of the text completes a record, too. -/
theorem Holds.last (h : r.Holds fields field) (hinside : r.IsInside) :
    ∃ record : Record, r.records [] = [record] ∧ record.fields = fields ++ [field] := by
  refine ⟨r.record, ?_, h.fields_record⟩
  rcases hinside with hmode | hmode
  · rw [records, Reader.last, hmode]
  · rw [records, Reader.last, hmode]

/-- The records of some lines, from anywhere in front of a record. -/
theorem IsFresh.fields_records (h : r.IsFresh) {records : List (List (List Char))}
    {cs : List Char} (htext : IsText records cs)
    (hrecords : ∀ fields ∈ records, IsUnquoted fields) :
    (r.records cs).map Record.fields = records := by
  induction htext generalizing r with
  | none =>
      rw [Reader.records, Reader.last]
      rcases h.mode with hmode | hmode <;> rw [hmode] <;> rfl
  | last fields =>
      obtain ⟨hseveral, hplain⟩ := hrecords fields List.mem_cons_self
      have hne : fields ≠ [] := List.ne_nil_of_length_pos (by omega)
      obtain ⟨r', before, last, hr', hholds, hsplit, hinside⟩ := h.holds.line hne hplain []
      obtain ⟨record, hrecord, hfields⟩ := hholds.last (hinside (Or.inr hseveral))
      rw [List.append_nil] at hr'
      rw [hr', hrecord, List.map_singleton, hfields, hsplit, List.nil_append]
  | @more fields lineEnd cs records hend _ ih =>
      obtain ⟨hunquoted, hrest⟩ := List.forall_mem_cons.mp hrecords
      obtain ⟨hseveral, hplain⟩ := hunquoted
      have hne : fields ≠ [] := List.ne_nil_of_length_pos (by omega)
      obtain ⟨r₁, before, last, hr₁, hholds, hsplit, hinside⟩ :=
        h.holds.line hne hplain (lineEnd ++ cs)
      obtain ⟨record, r', hr', hfields, hfresh⟩ :=
        hholds.lineEnd (hinside (Or.inr hseveral)) hend cs
      rw [hr₁, hr', List.map_cons, hfields, hsplit, List.nil_append, ih hfresh hrest]

end Reader

theorem isFresh_initial (byte : Nat) : (Reader.initial byte).IsFresh :=
  ⟨Or.inl rfl, rfl, rfl⟩

/-- A line does not start with a byte order mark. -/
theorem IsUnquoted.front {fields : List (List Char)} (h : IsUnquoted fields) :
    ∃ c cs, line fields = c :: cs ∧ c.toNat ≠ 0xFEFF := by
  obtain ⟨hseveral, hplain⟩ := h
  match fields, hseveral with
  | [] :: next :: others, _ => exact ⟨',', line (next :: others), rfl, by decide⟩
  | (c :: cs) :: next :: others, _ =>
      have hc : isPlain c = true := hplain (c :: cs) List.mem_cons_self c List.mem_cons_self
      simp only [isPlain, Bool.and_eq_true, bne_iff_ne] at hc
      exact ⟨c, cs ++ ',' :: line (next :: others), rfl, hc.2⟩

theorem IsText.front {records : List (List (List Char))} {c : Char} {cs : List Char}
    (htext : IsText records (c :: cs)) (hrecords : ∀ fields ∈ records, IsUnquoted fields) :
    c.toNat ≠ 0xFEFF := by
  generalize htotal : c :: cs = total at htext
  cases htext with
  | none => cases htotal
  | last fields =>
      obtain ⟨d, ds, hline, hd⟩ := (hrecords fields List.mem_cons_self).front
      rw [hline] at htotal
      cases htotal
      exact hd
  | more fields _ _ =>
      obtain ⟨d, ds, hline, hd⟩ := (hrecords fields List.mem_cons_self).front
      rw [hline] at htotal
      cases htotal
      exact hd

/-- **The fields of a text are those of its lines.** -/
theorem fields_records {records : List (List (List Char))} {cs : List Char}
    (htext : IsText records cs) (hrecords : ∀ fields ∈ records, IsUnquoted fields) :
    (Csv.records cs).map Record.fields = records := by
  cases cs with
  | nil => exact (isFresh_initial 0).fields_records htext hrecords
  | cons c cs =>
      rw [Csv.records, if_neg (by simpa using htext.front hrecords)]
      exact (isFresh_initial 0).fields_records htext hrecords

end ChartScript.Csv
