/-
Plots with a quoted title.

Four scanners pass over the title of a plot: the one that looks for a comment, the one that looks
for the closing parenthesis, the one that cuts the arguments apart, and the one that looks for the
name of an argument.  What stands between quote characters is hidden from the first three, and the
fourth finds no name in front of it but the one that the row gives.
-/
import ChartScript.Proofs.Arguments.Cutting
import ChartScript.Proofs.Script.Assignment
import ChartScript.Proofs.Script.Comment

namespace ChartScript

open Text

/-! ### Words and quoted texts as arguments -/

/-- A character of names, numbers and colors. -/
def isWordCharacter (c : Char) : Bool :=
  isIdentifierRest c || c == '.' || c == '#'

theorem isWordCharacter_of_isIdentifier {name : List Char} (h : isIdentifier name = true) :
    ∀ c ∈ name, isWordCharacter c = true := fun _ hc =>
  Bool.or_eq_true_iff.mpr (Or.inl (Bool.or_eq_true_iff.mpr (Or.inl (isIdentifierRest_of_mem h hc))))

theorem isBlank_of_isWordCharacter {c : Char} (h : isWordCharacter c = true) :
    isBlank c = false := by
  rcases Bool.or_eq_true_iff.mp h with hname | hhash
  · rcases Bool.or_eq_true_iff.mp hname with hname | hpoint
    · exact (isPlain_of_isIdentifierRest hname).blank
    · rw [beq_iff_eq.mp hpoint]
      decide
  · rw [beq_iff_eq.mp hhash]
    decide

theorem isUnquoting_of_isWordCharacter {c : Char} (h : isWordCharacter c = true) :
    IsUnquoting c :=
  isUnquoting_of_class h (by decide) (by decide) (by decide)

theorem isSealed_of_word {marks word : List Char} (h : ∀ c ∈ word, isWordCharacter c = true)
    (hmarks : ∀ c ∈ marks, isWordCharacter c = false) : IsSealed marks word :=
  .of_isUnquoting fun c hc => ⟨isUnquoting_of_isWordCharacter (h c hc),
    fun hmark => ne_of_class (h c hc) (hmarks c hmark) rfl⟩

theorem isTrimmed_of_word {word : List Char} (h : ∀ c ∈ word, isWordCharacter c = true) :
    IsTrimmed word :=
  isTrimmed_of_forall fun c hc => isBlank_of_isWordCharacter (h c hc)

namespace Line

/-! ### The arguments of a plot -/

/-- An argument with its name. -/
def namedArgument (key : String) (value : List Char) : List Char :=
  key.toList ++ '=' :: value

/-- The marks at which the row of a plot is taken apart, outside quoted runs. -/
def plotMarks : List Char := [',', '(', ')', '/']

theorem not_isWordCharacter_of_mem : ∀ c ∈ plotMarks, isWordCharacter c = false :=
  forall_mem_of_all (by decide)

/-- A text that can stand among the arguments of a plot as it is. -/
structure IsPlotArgument (cs : List Char) : Prop where
  nonempty : cs ≠ []
  trimmed : IsTrimmed cs
  isSealed : IsSealed plotMarks cs

namespace IsPlotArgument

theorem word {cs : List Char} (h : ∀ c ∈ cs, isWordCharacter c = true) (hne : cs ≠ []) :
    IsPlotArgument cs :=
  ⟨hne, isTrimmed_of_word h, isSealed_of_word h not_isWordCharacter_of_mem⟩

theorem quoted {quote : Char} {cs : List Char} (hquote : isQuote quote = true)
    (h : IsQuotable cs) : IsPlotArgument (quoted quote cs) :=
  ⟨by simp [Text.quoted], isTrimmed_quoted hquote cs,
    h.isSealed hquote (forall_mem_of_all (by decide))⟩

theorem named {key : String} {value : List Char} (hkey : isIdentifier key.toList = true)
    (hvalue : IsTrimmed value) (hsealed : IsSealed plotMarks value) :
    IsPlotArgument (namedArgument key value) where
  nonempty := by simp [namedArgument]
  trimmed := by
    refine ⟨fun c hc => ?_, fun c hc => ?_⟩
    · have hfront : c ∈ key.toList.head? := by
        rw [namedArgument, List.head?_append_of_ne_nil _ (ne_nil_of_isIdentifier hkey)] at hc
        exact hc
      exact (isTrimmed_of_isIdentifier hkey).front c hfront
    · rw [namedArgument, List.getLast?_append_cons] at hc
      cases value with
      | nil =>
          cases hc
          decide
      | cons => exact hvalue.back c hc
  isSealed := by
    have hname : IsSealed plotMarks (key.toList ++ ['=']) :=
      .append (isSealed_of_word (isWordCharacter_of_isIdentifier hkey) not_isWordCharacter_of_mem)
        (.of_isUnquoting (forall_mem_of_all (by decide)))
    rw [namedArgument, List.append_cons]
    exact hname.append hsealed

theorem isArgument {cs : List Char} (h : IsPlotArgument cs) : Arguments.IsArgument cs :=
  Arguments.isArgument_of_isSealed (h.isSealed.mono (by decide)) h.nonempty h.trimmed

end IsPlotArgument

/-! ### The row of a plot -/

/-- The row of a plot with some arguments. -/
def plotRow (arguments : List (List Char)) : List Char :=
  "plot(".toList ++ ", ".toList.intercalate arguments ++ [')']

variable {arguments : List (List Char)}

theorem isSealed_joined (h : ∀ argument ∈ arguments, IsPlotArgument argument) {marks : List Char}
    (hsub : marks ⊆ plotMarks) (hcomma : ',' ∉ marks) :
    IsSealed marks (", ".toList.intercalate arguments) := by
  refine .intercalate (.of_isUnquoting fun c hc => ?_) fun argument hmem =>
    (h argument hmem).isSealed.mono hsub
  rcases List.mem_cons.mp hc with rfl | hc
  · exact ⟨by decide, hcomma⟩
  · rw [List.mem_singleton.mp hc]
    exact ⟨by decide, fun hmark => absurd (hsub hmark) (by decide)⟩

/-- No slash in the row of a plot is outside quoted runs, and all its quoted runs are closed. -/
theorem isSealed_plotRow (h : ∀ argument ∈ arguments, IsPlotArgument argument) :
    IsSealed ['/'] (plotRow arguments) :=
  .append (.append (.of_isUnquoting (forall_mem_of_all (by decide)))
    (isSealed_joined h (by decide) (by decide))) (.of_isUnquoting (forall_mem_of_all (by decide)))

theorem getLast?_plotRow (arguments : List (List Char)) :
    (plotRow arguments).getLast? = some ')' :=
  List.getLast?_concat

theorem isTrimmed_plotRow (arguments : List (List Char)) : IsTrimmed (plotRow arguments) := by
  refine ⟨fun c hc => ?_, fun c hc => ?_⟩
  · cases hc
    decide
  · rw [getLast?_plotRow] at hc
    cases hc
    decide

/-- **The row of a plot is read as a plot**, whatever is quoted in its arguments. -/
theorem form_plotRow (h : ∀ argument ∈ arguments, IsPlotArgument argument) :
    form (plotRow arguments) =
      .plot (plotRow arguments) ('(' :: (", ".toList.intercalate arguments ++ [')'])) := by
  have hcode : code (plotRow arguments) = plotRow arguments := by
    have happend := codeFrom_append_of_hidden (isSealed_plotRow h).hidden []
    rw [List.append_nil, codeFrom, List.append_nil] at happend
    rw [code, withoutComment, happend, trimEnd_eq_self (isTrimmed_plotRow arguments).back]
  rw [form_eq, (isTrimmed_plotRow arguments).trim_eq, hcode]
  rfl

/-- The arguments of such a row are the ones that it was written with. -/
theorem plotArguments_joined (h : ∀ argument ∈ arguments, IsPlotArgument argument) :
    plotArguments ('(' :: (", ".toList.intercalate arguments ++ [')'])) =
      .ok (.ofList arguments) := by
  have hlist : Arguments.IsArgumentList (", ".toList.intercalate arguments) :=
    Arguments.isArgumentList_of_isSealed (isSealed_joined h (by decide) (by decide))
  have hclosing : Arguments.closing (.atDepth 1) (", ".toList.intercalate arguments ++ [')']) =
      some (", ".toList.intercalate arguments, []) := hlist
  have hsplit := Arguments.split_intercalate fun argument hmem => (h argument hmem).isArgument
  simp only [plotArguments, Arguments.enclosed, beq_self_eq_true, if_true, hclosing, hsplit]
  rfl

/-- A row is read as the plot that its arguments make, with or without a comment behind it. -/
theorem parse_plotRow (h : ∀ argument ∈ arguments, IsPlotArgument argument) {tail : List Char}
    (htail : IsTrailing tail) {plot : PlotStatement}
    (hplot : (PlotArguments.ofList arguments).statement (plotRow arguments) = .ok plot)
    (number : Nat) :
    parse number (plotRow arguments ++ tail) = .ok (some (.statement ⟨number, .plot plot⟩)) := by
  have houtside : (Quotation.start.after (plotRow arguments)).isOutside = true := by
    rw [(isSealed_plotRow h).closed]
    rfl
  have hlast : (plotRow arguments).getLast? ≠ some '/' := by
    rw [getLast?_plotRow]
    decide
  have hstatement : plotStatement (plotRow arguments)
      ('(' :: (", ".toList.intercalate arguments ++ [')'])) = .ok plot := by
    rw [plotStatement, plotArguments_joined h]
    exact hplot
  rw [parse, form_append_trailing houtside hlast htail, form_plotRow h]
  simp only [meaning, hstatement]

/-! ### Names of arguments -/

theorem named?_of_not_mem {cs : List Char} (h : '=' ∉ cs) : Arguments.named? cs = none := by
  have hdrop : cs.dropWhile (· != '=') = [] :=
    List.dropWhile_eq_nil_iff.mpr fun c hc => bne_iff_ne.mpr fun heq => h (heq ▸ hc)
  simp only [Arguments.named?, hdrop]

theorem isIdentifierStart_of_isQuote {c : Char} (h : isQuote c = true) :
    isIdentifierStart c = false := by
  rw [Bool.eq_false_iff]
  intro hstart
  have hname : isIdentifier [c] = true := Bool.and_eq_true_iff.mpr ⟨hstart, rfl⟩
  have hword : isWordCharacter c = true :=
    isWordCharacter_of_isIdentifier hname c (List.mem_singleton.mpr rfl)
  rw [(isUnquoting_of_isWordCharacter hword).1] at h
  cases h

/-- A quote character starts no name, so no equals sign in a quoted text has one in front. -/
theorem named?_quoted {quote : Char} (h : isQuote quote = true) (cs : List Char) :
    Arguments.named? (quoted quote cs) = none := by
  have hequals : (quote != '=') = true := bne_iff_ne.mpr (ne_of_class h (by decide))
  have hkey : isIdentifier (trim ((quoted quote cs).takeWhile (· != '='))) = false := by
    rw [quoted, List.takeWhile_cons_of_pos (p := (· != '=')) hequals, trim,
      trimStart_eq_self (by simpa using isBlank_of_isQuote h), ← List.nil_append (quote :: _),
      trimEnd_append_cons (isBlank_of_isQuote h), List.nil_append, isIdentifier,
      isIdentifierStart_of_isQuote h, Bool.false_and]
  unfold Arguments.named?
  split
  · rfl
  · simp [hkey]

theorem named?_namedArgument {key : String} {value : List Char}
    (hkey : isIdentifier key.toList = true) (htrimmed : IsTrimmed value)
    (hvalue : value.head? ≠ some '=') :
    Arguments.named? (namedArgument key value) = some (key.toList, value) := by
  have hname : ∀ c ∈ key.toList, (c != '=') = true := fun c hc =>
    bne_iff_ne.mpr (isPlain_of_mem hkey c hc).equals
  have htake : (namedArgument key value).takeWhile (· != '=') = key.toList := by
    rw [namedArgument, List.takeWhile_append_of_pos hname, List.takeWhile_cons_of_neg (by decide),
      List.append_nil]
  have hdrop : (namedArgument key value).dropWhile (· != '=') = '=' :: value := by
    rw [namedArgument, List.dropWhile_append_of_pos hname, List.dropWhile_cons_of_neg (by decide)]
  have hsign : (value.head? != some '=') = true := bne_iff_ne.mpr hvalue
  simp only [Arguments.named?, hdrop, htake, (isTrimmed_of_isIdentifier hkey).trim_eq,
    htrimmed.trim_eq, hkey, hsign]
  rfl

/-! ### Titles -/

theorem unquote_quoted {quote : Char} {cs : List Char} (hquote : isQuote quote = true)
    (h : ∀ c ∈ cs, isQuote c = false) : unquote (quoted quote cs) = cs := by
  have hcs : cs.filter (fun c => !isQuote c) = cs :=
    List.filter_eq_self.mpr fun c hc => by rw [h c hc, Bool.not_false]
  rw [unquote, quoted, List.filter_cons_of_neg (by simp [hquote]), List.filter_append, hcs,
    List.filter_cons_of_neg (by simp [hquote]), List.filter_nil, List.append_nil]

theorem title?_quoted {quote : Char} {title : List Char} (hquote : isQuote quote = true)
    (htitle : IsQuotable title) (hne : title ≠ []) :
    title? (quoted quote title) = some (String.ofList title) := by
  rw [title?, unquote_quoted hquote htitle.quoteless, if_neg (by simpa using hne)]

/-! ### The arguments sorted -/

namespace PlotArguments

variable {sorted : PlotArguments} {argument value : List Char}

theorem add_positional (h : Arguments.named? argument = Option.none) :
    sorted.add argument = { sorted with positional := sorted.positional ++ [argument] } := by
  simp only [add, h]

theorem add_title (h : Arguments.named? argument = some ("title".toList, value)) :
    sorted.add argument = { sorted with title := some value } := by
  simp only [add, h]
  rfl

theorem add_color (h : Arguments.named? argument = some ("color".toList, value)) :
    sorted.add argument = { sorted with color := some value } := by
  simp only [add, h]
  rfl

end PlotArguments

/-- **Quoted titles arrive intact.**  A title in quotes is read as it is written between them, by
its place or by its name, whatever commas, parentheses, equals signs and comment marks are in it. -/
theorem quoted_title_arrives_intact {series title color tail : List Char} {quote : Char}
    (hseries : isIdentifier series = true) (hquote : isQuote quote = true)
    (htitle : IsQuotable title) (hne : title ≠ [])
    (hcolor : ∀ c ∈ color, isWordCharacter c = true) (htail : IsTrailing tail) (number : Nat) :
    let plot : PlotStatement := {
      series := String.ofList series
      title := String.ofList title
      color := Color.resolve (some (String.ofList color)) }
    let placed := [series, quoted quote title, namedArgument "color" color]
    let named := [series, namedArgument "color" color, namedArgument "title" (quoted quote title)]
    parse number (plotRow placed ++ tail) = .ok (some (.statement ⟨number, .plot plot⟩)) ∧
      parse number (plotRow named ++ tail) = .ok (some (.statement ⟨number, .plot plot⟩)) := by
  intro plot placed named
  have hseriesNe : series ≠ [] := ne_nil_of_isIdentifier hseries
  have hcolorTrimmed : IsTrimmed color := isTrimmed_of_word hcolor
  have hseriesArgument : IsPlotArgument series :=
    .word (isWordCharacter_of_isIdentifier hseries) hseriesNe
  have htitleArgument : IsPlotArgument (quoted quote title) := .quoted hquote htitle
  have hcolorArgument : IsPlotArgument (namedArgument "color" color) :=
    .named (by decide) hcolorTrimmed (isSealed_of_word hcolor not_isWordCharacter_of_mem)
  have hnamedArgument : IsPlotArgument (namedArgument "title" (quoted quote title)) :=
    .named (by decide) htitleArgument.trimmed htitleArgument.isSealed
  -- What the scan for names makes of each argument.
  have hseriesName : Arguments.named? series = none :=
    named?_of_not_mem fun hmem => (isPlain_of_mem hseries _ hmem).equals rfl
  have htitleName : Arguments.named? (quoted quote title) = none := named?_quoted hquote title
  have hcolorName := @named?_namedArgument "color" color (by decide) hcolorTrimmed fun hhead =>
    absurd (hcolor _ (List.mem_of_head? hhead)) (by decide)
  have hnamedName := @named?_namedArgument "title" (quoted quote title) (by decide)
    htitleArgument.trimmed fun hhead => by
      cases hhead
      cases hquote
  have hplaced : PlotArguments.ofList placed =
      ⟨[series, quoted quote title], none, some color, []⟩ := by
    show ((PlotArguments.none.add series).add (quoted quote title)).add _ = _
    rw [PlotArguments.add_positional hseriesName, PlotArguments.add_positional htitleName,
      PlotArguments.add_color hcolorName]
    rfl
  have hnamed : PlotArguments.ofList named =
      ⟨[series], some (quoted quote title), some color, []⟩ := by
    show ((PlotArguments.none.add series).add _).add _ = _
    rw [PlotArguments.add_positional hseriesName, PlotArguments.add_color hcolorName,
      PlotArguments.add_title hnamedName]
    rfl
  have hseriesEmpty : series.isEmpty = false := List.isEmpty_eq_false_iff.mpr hseriesNe
  have htitleText := title?_quoted hquote htitle hne
  refine ⟨parse_plotRow ?_ htail ?_ number, parse_plotRow ?_ htail ?_ number⟩
  · simp [placed, hseriesArgument, htitleArgument, hcolorArgument]
  · rw [hplaced]
    simp [PlotArguments.statement, hseriesEmpty, htitleText, plot]
  · simp [named, hseriesArgument, hcolorArgument, hnamedArgument]
  · rw [hnamed]
    simp [PlotArguments.statement, hseriesEmpty, htitleText, plot]

/-- A title with every mark in it, quoted either way, and a comment with a quote character. -/
theorem quoted_title_with_marks :
    let line : Line := .statement ⟨7, .plot ⟨"ma_1", "a\\b, (c == //d", "#FF0000"⟩⟩
    parse 7 "plot(ma_1, \x27a\\b, (c == //d\x27, color=color.red)".toList = .ok (some line) ∧
      parse 7 ("plot(ma_1, color=color.red, title=\x22a\\b, (c == //d\x22)".toList ++
        " // \x22".toList) = .ok (some line) := by
  intro line
  have htitle : IsQuotable "a\\b, (c == //d".toList :=
    ⟨forall_mem_of_all (by decide), by decide⟩
  have hcolor : ∀ c ∈ "color.red".toList, isWordCharacter c = true :=
    List.all_eq_true.mp (by decide)
  have hnothing : IsTrailing [] := ⟨[], [], List.forall_mem_nil _, .inl rfl, rfl⟩
  have hcomment : IsTrailing " // \x22".toList :=
    ⟨[' '], "// \x22".toList, List.forall_mem_singleton.mpr rfl, .inr (by decide), rfl⟩
  obtain ⟨hplaced, -⟩ := @quoted_title_arrives_intact "ma_1".toList _ _ _ '\x27'
    (by decide) (by decide) htitle (by decide) hcolor hnothing 7
  obtain ⟨-, hnamed⟩ := @quoted_title_arrives_intact "ma_1".toList _ _ _ '\x22'
    (by decide) (by decide) htitle (by decide) hcolor hcomment 7
  exact ⟨hplaced, hnamed⟩

end Line

end ChartScript
