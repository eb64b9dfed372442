/-
Indicator calls read back from their texts.

The text of an indicator shows every parameter, also those that the call left out.  Behind the
name of the call its parenthesised part is a call again: what a parameter stands for is something
it admits, whether it was read or is the default, and what a parameter admits is written so that it
reads as itself and hides no comma and no parenthesis.  For numbers this rests on one thing that is
assumed here, that their texts read back.
-/
import ChartScript.Proofs.Decimal.PlainText
import ChartScript.Proofs.Indicator.Parameters
import ChartScript.Proofs.Script.PlotTitle

namespace ChartScript

open Text

namespace Indicator

open Arguments

/-! ### What parameters admit -/

/-- What parameters of a role may stand for. -/
def Role.Admits : Role → Value → Prop
  | .series, .series name => isIdentifier name.toList = true
  | .length _, .length n => 1 ≤ n ∧ n < 2 ^ 64
  | .number _, .number x => x.isFinite = true
  | _, _ => False

theorem Reads.admits {role : Role} {text : String} {v : Value} (h : Reads role text v) :
    role.Admits v := by
  cases h with
  | series name => exact name
  | length _ positive fits => exact ⟨positive, fits⟩
  | number _ finite => exact finite

/-- Every default is something that could have been given. -/
theorem admits_default {kind : Kind} {p : Parameter} (hp : p ∈ kind.parameters) {v : Value}
    (h : p.role.default? = some v) : p.role.Admits v := by
  have htwo : (Float.ofNat 2).isFinite = true := by decide
  have hall : ∀ q ∈ kind.parameters, ∀ w, q.role.default? = some w → q.role.Admits w := by
    cases kind <;> simp [Kind.parameters, Role.default?, Role.Admits, htwo]
  exact hall p hp v h

/-- The parameters of an indicator stand for what they admit. -/
def IsAdmissible (i : Indicator) : Prop :=
  ∀ (n : Nat) (p : Parameter) (v : Value), i.kind.parameters[n]? = some p →
    i.values[n]? = some v → p.role.Admits v

theorem isAdmissible_of_decode {kind : Kind} {arguments : List String} {i : Indicator}
    (h : decode kind arguments = .ok i) : i.IsAdmissible := by
  obtain ⟨rfl, hsuits⟩ := decode_eq_ok_iff.mp h
  intro n p v hp hv
  have hgives := hsuits.gives n p v hp hv
  cases hargument : arguments[n]? with
  | none =>
      rw [hargument] at hgives
      exact admits_default (List.mem_of_getElem? hp) hgives
  | some text =>
      rw [hargument] at hgives
      exact Reads.admits hgives

/-- An indicator that a call reads as has been decoded from its arguments. -/
theorem exists_decode_of_readCall? {cs : List Char} {i : Indicator}
    (h : readCall? cs = some (.ok i)) : ∃ kind arguments, decode kind arguments = .ok i := by
  unfold readCall? at h
  split at h
  · cases h
  simp only at h
  split at h
  · cases h
  -- From here on it is a call, and can only be malformed or decoded.
  rw [Option.some_inj] at h
  unfold readArguments at h
  simp only at h
  split at h
  · cases h
  split at h
  · split at h
    · rename_i hdecode
      cases h
      exact ⟨_, _, hdecode⟩
    · cases h
  · cases h

theorem isAdmissible_of_readCall? {cs : List Char} {i : Indicator}
    (h : readCall? cs = some (.ok i)) : i.IsAdmissible := by
  obtain ⟨kind, arguments, hdecode⟩ := exists_decode_of_readCall? h
  exact isAdmissible_of_decode hdecode

/-! ### Written values -/

/-- How a value is written. -/
def Value.text : Value → String
  | .series name => name
  | .length n => toString n
  | .number x => plainText x

theorem arguments_eq (i : Indicator) : i.arguments = i.values.map Value.text := by
  cases i <;> rfl

theorem toList_toString (n : Nat) : (toString n).toList = digits n :=
  String.toList_ofList

/-- If a value is a finite number, this reads back from its text. -/
def Value.ReadsBack (v : Value) : Prop :=
  ∀ x, v = .number x → x.isFinite = true → Decimal.readFloat? (plainText x).toList = some x

/-- **What is admitted is read from its text.** -/
theorem Role.Admits.reads {role : Role} {v : Value} (h : role.Admits v) (hback : v.ReadsBack) :
    Reads role v.text v := by
  match role, v, h with
  | .series, .series name, h => exact .series h
  | .length default, .length n, ⟨positive, fits⟩ =>
      exact .length ⟨[], digits n, toList_toString n, .inl rfl, digits_ne_nil n,
        fun c hc => Json.Token.isDigit_of_mem_digits hc, Numeral.ofDigits_digits n⟩ positive fits
  | .number default, .number x, h => exact .number (hback x rfl h) h

/-- A character that values are written with. -/
def IsValueCharacter (c : Char) : Prop :=
  isWordCharacter c = true ∨ c = '-'

theorem IsValueCharacter.isBlank {c : Char} (h : IsValueCharacter c) : isBlank c = false := by
  rcases h with hword | rfl
  · exact isBlank_of_isWordCharacter hword
  · decide

theorem IsValueCharacter.isUnquoting {c : Char} (h : IsValueCharacter c) : IsUnquoting c := by
  rcases h with hword | rfl
  · exact isUnquoting_of_isWordCharacter hword
  · decide

theorem IsValueCharacter.not_mem_marks {c : Char} (h : IsValueCharacter c) :
    c ∉ [',', '(', ')'] := by
  intro hmark
  have hother : isWordCharacter c = false :=
    Line.not_isWordCharacter_of_mem c (List.mem_append_left ['/'] hmark)
  rcases h with hword | rfl
  · exact ne_of_class hword hother rfl
  · exact absurd hmark (by decide)

theorem isWordCharacter_of_isDigit {c : Char} (h : c.isDigit = true) :
    isWordCharacter c = true := by
  simp [isWordCharacter, isIdentifierRest, Char.isAlphanum, h]

theorem Role.Admits.text_ne_nil {role : Role} {v : Value} (h : role.Admits v) :
    v.text.toList ≠ [] := by
  match role, v, h with
  | .series, .series name, h => exact ne_nil_of_isIdentifier h
  | .length default, .length n, _ =>
      rw [Value.text, toList_toString]
      exact digits_ne_nil n
  | .number default, .number x, h =>
      obtain ⟨whole, fraction, htext, hne, -⟩ := plainText_signedDigits h
      rw [Value.text, htext]
      simp [hne]

theorem Role.Admits.isValueCharacter {role : Role} {v : Value} (h : role.Admits v) {c : Char}
    (hc : c ∈ v.text.toList) : IsValueCharacter c := by
  match role, v, h with
  | .series, .series name, h => exact .inl (isWordCharacter_of_isIdentifier h c hc)
  | .length default, .length n, _ =>
      rw [Value.text, toList_toString] at hc
      exact .inl (isWordCharacter_of_isDigit (Json.Token.isDigit_of_mem_digits hc))
  | .number default, .number x, h =>
      obtain ⟨whole, fraction, htext, -, hwhole, hfraction⟩ := plainText_signedDigits h
      rw [Value.text, htext] at hc
      rcases List.mem_append.mp hc with hsign | hc
      · split at hsign
        · exact .inr (List.mem_singleton.mp hsign)
        · cases hsign
      rcases List.mem_append.mp hc with hc | hc
      · exact .inl (isWordCharacter_of_isDigit (hwhole c hc))
      · unfold Numeral.fractionText at hc
        split at hc
        · cases hc
        · rcases List.mem_cons.mp hc with rfl | hc
          · exact .inl (by decide)
          · exact .inl (isWordCharacter_of_isDigit (hfraction c hc))

theorem Role.Admits.isSealed {role : Role} {v : Value} (h : role.Admits v) :
    IsSealed [',', '(', ')'] v.text.toList :=
  .of_isUnquoting fun _ hc =>
    ⟨(h.isValueCharacter hc).isUnquoting, (h.isValueCharacter hc).not_mem_marks⟩

theorem Role.Admits.isArgument {role : Role} {v : Value} (h : role.Admits v) :
    IsArgument v.text.toList :=
  isArgument_of_isSealed h.isSealed h.text_ne_nil
    (isTrimmed_of_forall fun _ hc => (h.isValueCharacter hc).isBlank)

/-! ### Reading a text back -/

variable {i : Indicator}

theorem IsAdmissible.exists_admits (h : i.IsAdmissible) {v : Value} (hv : v ∈ i.values) :
    ∃ role : Role, role.Admits v := by
  obtain ⟨n, hn, rfl⟩ := List.getElem_of_mem hv
  have hp := List.getElem?_eq_getElem (i.length_values ▸ hn)
  exact ⟨_, h n _ _ hp (List.getElem?_eq_getElem hn)⟩

theorem IsAdmissible.suits (h : i.IsAdmissible) (hback : ∀ v ∈ i.values, v.ReadsBack) :
    Suits i.kind.parameters i.arguments i.values where
  count := by rw [arguments_eq, List.length_map, length_values]
  total := i.length_values
  gives := by
    intro n p v hp hv
    rw [arguments_eq, List.getElem?_map, hv]
    exact (h n p v hp hv).reads (hback v (List.mem_of_getElem? hv))

/-- The arguments as they are written, with a comma and a blank between them. -/
def argumentText (i : Indicator) : List Char :=
  ", ".toList.intercalate (i.arguments.map String.toList)

theorem text_eq (i : Indicator) :
    i.text.toList = i.kind.title.toList ++ '(' :: (i.argumentText ++ [')']) := by
  simp [text, argumentText]

/-- **The parenthesised part of the text of an indicator is a call of it.** -/
theorem IsAdmissible.readCall?_argumentText (h : i.IsAdmissible)
    (hback : ∀ v ∈ i.values, v.ReadsBack) :
    readCall? (callText i.kind i.argumentText) = some (.ok i) := by
  have htexts : ∀ text ∈ i.arguments.map String.toList,
      IsArgument text ∧ IsSealed [',', '(', ')'] text := by
    intro text htext
    rw [arguments_eq, List.map_map] at htext
    obtain ⟨v, hv, rfl⟩ := List.mem_map.mp htext
    obtain ⟨role, hadmits⟩ := h.exists_admits hv
    exact ⟨hadmits.isArgument, hadmits.isSealed⟩
  have hcomma : IsSealed ['(', ')'] ", ".toList :=
    .of_isUnquoting (forall_mem_of_all (by decide))
  have hlist : IsArgumentList i.argumentText :=
    isArgumentList_of_isSealed (hcomma.intercalate fun text htext =>
      (htexts text htext).2.mono (by simp))
  have hdecode : decode i.kind i.arguments = .ok i :=
    decode_eq_ok_iff.mpr ⟨rfl, h.suits hback⟩
  have harguments : (i.arguments.map String.toList).map String.ofList = i.arguments := by
    simp [Function.comp_def]
  rw [readCall?_of_isArgumentList hlist, argumentText,
    split_intercalate fun text htext => (htexts text htext).1, decoded, harguments, hdecode]

/-- **A call reads back from the text of its indicator.** -/
theorem text_reads_back {cs : List Char} (h : readCall? cs = some (.ok i))
    (hback : ∀ x, .number x ∈ i.values → x.isFinite = true →
      Decimal.readFloat? (plainText x).toList = some x) :
    i.kind.title.toList.map Char.toLower = i.kind.name.toList ∧
    ∃ list, i.text.toList = i.kind.title.toList ++ list ∧ list.head? = some '(' ∧
      readCall? (namespaceMark.toList ++ i.kind.name.toList ++ list) = some (.ok i) := by
  refine ⟨by cases i.kind <;> decide, '(' :: (i.argumentText ++ [')']), text_eq i, rfl, ?_⟩
  refine (isAdmissible_of_readCall? h).readCall?_argumentText fun v hv x hx => ?_
  rw [hx] at hv
  exact hback x hv

/-- A call with blanks, a plus sign, zeros in front and no multiplier reads back from the plain text
of its indicator, with the multiplier. -/
theorem text_of_bands_reads_back :
    readCall? "ta.bb( close ,+020)".toList = some (.ok (.bollinger "close" 20 (Float.ofNat 2))) ∧
      readCall? "ta.bb(close, 20, 2)".toList =
        some (.ok (.bollinger "close" 20 (Float.ofNat 2))) := by
  have hcall : readCall? "ta.bb( close ,+020)".toList =
      some (.ok (.bollinger "close" 20 (Float.ofNat 2))) := by decide +kernel
  obtain ⟨-, list, htext, -, hread⟩ := text_reads_back hcall fun x hx _ => by
    simp only [values, List.mem_cons, reduceCtorEq, Value.number.injEq, List.not_mem_nil, or_false,
      false_or] at hx
    rw [hx]
    decide +kernel
  have hlist : list = "(close, 20, 2)".toList := by
    refine List.append_cancel_left (htext.symm.trans ?_)
    decide +kernel
  rw [hlist] at hread
  exact ⟨hcall, hread⟩

end Indicator

end ChartScript
