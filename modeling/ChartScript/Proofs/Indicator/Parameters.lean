/-
The parameters of indicator calls, and which arguments suit them.

Each kind of indicator has its parameters in a fixed order, and a call gives arguments for the
first of them.  Here the parameters are a table, `Kind.parameters`, and what decoding does is told
by position: an argument reads as a value for its parameter, or it is to blame, and a parameter
without an argument has its default, or is missing.  `decode_eq` proves that decoding the calls of
any kind is walking along its row of the table, so whatever is said of a walk along parameters is
said of all kinds at once.  `Tells` gives the words for what can be wrong at a position, from the
parameter and the argument there, and `Offends.tells` proves that these are the words of a fault.
-/
import Mathlib.Algebra.Group.Nat.Defs
import ChartScript.Proofs.Arguments.Padding
import ChartScript.Proofs.Checks
import ChartScript.Proofs.Decimal.NumberText

namespace ChartScript

open Text

namespace Indicator

open Arguments

/-! ### The table -/

/-- What a parameter takes, and what stands for it when it is left out. -/
inductive Role where
  | series
  | length (default : Option Nat)
  | number (default : Float)

/-- A parameter as messages name it, and its role. -/
structure Parameter where
  name : String
  role : Role

/-- What a parameter stands for in an indicator. -/
inductive Value where
  | series (name : String)
  | length (length : Nat)
  | number (x : Float)

/-- The value of a parameter that is left out, if it may be. -/
def Role.default? : Role → Option Value
  | .series => none
  | .length default => default.map .length
  | .number default => some (.number default)

/-- The parameters of the calls of a kind, in order. -/
def Kind.parameters : Kind → List Parameter
  | .sma | .ema | .wma | .rsi => [⟨"source", .series⟩, ⟨"length", .length none⟩]
  | .macd =>
      [⟨"source", .series⟩, ⟨"fast", .length (some 12)⟩, ⟨"slow", .length (some 26)⟩,
        ⟨"signal", .length (some 9)⟩]
  | .atr => [⟨"length", .length (some 14)⟩]
  | .stoch => [⟨"k", .length (some 14)⟩, ⟨"d", .length (some 3)⟩]
  | .bollinger =>
      [⟨"source", .series⟩, ⟨"length", .length (some 20)⟩, ⟨"mult", .number (Float.ofNat 2)⟩]

/-- Nothing stands for the parameter when it is left out. -/
def Parameter.isRequired (p : Parameter) : Bool :=
  p.role.default?.isNone

/-- How many arguments a call of a kind has at least. -/
def Kind.required (kind : Kind) : Nat :=
  kind.parameters.countP Parameter.isRequired

/-- What the parameters of an indicator stand for, in order. -/
def values : Indicator → List Value
  | .sma source length | .ema source length | .wma source length | .rsi source length =>
      [.series source, .length length]
  | .macd source fast slow signal =>
      [.series source, .length fast, .length slow, .length signal]
  | .atr length => [.length length]
  | .stoch kLength dLength => [.length kLength, .length dLength]
  | .bollinger source length multiplier =>
      [.series source, .length length, .number multiplier]

theorem length_values (i : Indicator) : i.values.length = i.kind.parameters.length := by
  cases i <;> rfl

/-- An indicator is its kind and its values. -/
theorem eq_of_values {i j : Indicator} (hkind : i.kind = j.kind) (hvalues : i.values = j.values) :
    i = j := by
  cases i <;> cases j <;> simp_all [kind, values]

/-- The parameters that must be given are the first ones. -/
theorem map_isRequired_parameters (kind : Kind) :
    kind.parameters.map Parameter.isRequired = List.replicate kind.required true ++
      List.replicate (kind.parameters.length - kind.required) false := by
  cases kind <;> rfl

theorem isRequired_iff {kind : Kind} {n : Nat} {p : Parameter}
    (h : kind.parameters[n]? = some p) : p.isRequired = true ↔ n < kind.required := by
  have hrequired : (kind.parameters.map Parameter.isRequired)[n]? = some p.isRequired := by
    rw [List.getElem?_map, h, Option.map_some]
  rw [map_isRequired_parameters] at hrequired
  by_cases hn : n < kind.required
  · rw [List.getElem?_append_left (by simpa using hn), List.getElem?_replicate_of_lt hn,
      Option.some_inj] at hrequired
    exact iff_of_true hrequired.symm hn
  · rw [List.getElem?_append_right (by simpa using hn)] at hrequired
    have hfalse := List.eq_of_mem_replicate (List.mem_of_getElem? hrequired)
    exact iff_of_false (by rw [hfalse]; exact Bool.false_ne_true) hn

/-! ### Whole numbers -/

/-- Digits, perhaps behind a plus sign, that stand for a number. -/
def IsWholeNumber (text : String) (n : Nat) : Prop :=
  ∃ sign digits, text.toList = sign ++ digits ∧ (sign = [] ∨ sign = ['+']) ∧ digits ≠ [] ∧
    (∀ c ∈ digits, c.isDigit = true) ∧ ofDigits digits = n

theorem isWholeNumber_iff_of_plus {text : String} {cs : List Char} (h : text.toList = '+' :: cs)
    {n : Nat} : IsWholeNumber text n ↔ readNat? cs = some n := by
  rw [readNat?_eq_some_iff, IsWholeNumber, h]
  constructor
  · rintro ⟨sign, digits, htext, rfl | rfl, hne, hall, hvalue⟩
    · rw [List.nil_append] at htext
      exact absurd (hall '+' (htext ▸ List.mem_cons_self)) (by decide)
    · rw [(List.cons.inj htext).2]
      exact ⟨hne, hall, hvalue⟩
  · intro hdigits
    exact ⟨['+'], cs, rfl, .inr rfl, hdigits⟩

theorem isWholeNumber_iff_of_ne_plus {text : String} (h : ∀ cs, text.toList ≠ '+' :: cs)
    {n : Nat} : IsWholeNumber text n ↔ readNat? text.toList = some n := by
  rw [readNat?_eq_some_iff]
  constructor
  · rintro ⟨sign, digits, htext, rfl | rfl, hdigits⟩
    · rw [htext]
      exact hdigits
    · exact absurd htext (h digits)
  · intro hdigits
    exact ⟨[], text.toList, rfl, .inl rfl, hdigits⟩

/-- **A length is a whole number that is not too large.** -/
theorem readLength?_eq_some_iff {text : String} {n : Nat} :
    readLength? text = some n ↔ IsWholeNumber text n ∧ n < 2 ^ 64 := by
  have hmax : n ≤ maxLength ↔ n < 2 ^ 64 := by
    unfold maxLength
    omega
  rw [readLength?]
  split
  · rename_i cs hplus
    rw [Option.filter_eq_some_iff, decide_eq_true_eq, hmax, isWholeNumber_iff_of_plus hplus]
  · rename_i cs hplus
    rw [Option.filter_eq_some_iff, decide_eq_true_eq, hmax,
      isWholeNumber_iff_of_ne_plus fun cs h => hplus cs h]

theorem readLength?_eq_none_iff {text : String} :
    readLength? text = none ↔ ∀ n, IsWholeNumber text n → 2 ^ 64 ≤ n := by
  rw [Option.eq_none_iff_forall_ne_some]
  refine forall_congr' fun n => ?_
  rw [Ne, readLength?_eq_some_iff, not_and, Nat.not_lt]

/-! ### One argument -/

/-- A text is taken as a value for parameters of a role. -/
inductive Reads : Role → String → Value → Prop where
  | series {text : String} (name : isIdentifier text.toList = true) :
      Reads .series text (.series text)
  | length {default : Option Nat} {text : String} {n : Nat} (whole : IsWholeNumber text n)
      (positive : 1 ≤ n) (fits : n < 2 ^ 64) : Reads (.length default) text (.length n)
  | number {default x : Float} {text : String} (reads : Decimal.readFloat? text.toList = some x)
      (finite : x.isFinite = true) : Reads (.number default) text (.number x)

/-- A text is no value for a parameter, and why. -/
inductive Blames : Parameter → String → ArgumentFault → Prop where
  | series {name text : String} (other : isIdentifier text.toList = false) :
      Blames ⟨name, .series⟩ text (.notSeries name text)
  | zero {name text : String} {default : Option Nat} (whole : IsWholeNumber text 0) :
      Blames ⟨name, .length default⟩ text (.notPositive name)
  | length {name text : String} {default : Option Nat}
      (unfit : ∀ n, IsWholeNumber text n → 2 ^ 64 ≤ n) :
      Blames ⟨name, .length default⟩ text (.notInteger name text)
  | number {name text : String} {default : Float}
      (unfit : ∀ x, Decimal.readFloat? text.toList = some x → x.isFinite = false) :
      Blames ⟨name, .number default⟩ text (.notNumber name text)

/-- What a parameter stands for with an argument or with none. -/
def Role.Gives (role : Role) : Option String → Value → Prop
  | some text, v => Reads role text v
  | none, v => role.default? = some v

/-- What is wrong with the argument of a parameter, or with its having none. -/
def Parameter.Faults (p : Parameter) : Option String → ArgumentFault → Prop
  | some text, fault => Blames p text fault
  | none, fault => p.isRequired = true ∧ fault = .missing p.name

/-! ### Taking an argument -/

/-- Take the argument of a parameter, as decoding does. -/
def Parameter.take (p : Parameter) (arguments : List String) :
    Except ArgumentFault (Value × List String) :=
  match p.role with
  | .series => do
      let (name, rest) ← takeSource p.name arguments
      return (.series name, rest)
  | .length default => do
      let (length, rest) ← takeLength p.name default arguments
      return (.length length, rest)
  | .number default => do
      let (x, rest) ← takeNumber p.name default arguments
      return (.number x, rest)

/-- An argument that gives its parameter a value is taken. -/
theorem Parameter.take_of_gives {p : Parameter} {arguments : List String} {v : Value}
    (h : p.role.Gives arguments.head? v) : p.take arguments = .ok (v, arguments.tail) := by
  obtain ⟨name, role⟩ := p
  cases arguments with
  | nil =>
      change role.default? = some v at h
      cases role with
      | series => cases h
      | length default =>
          obtain ⟨n, rfl, rfl⟩ := Option.map_eq_some_iff.mp h
          rfl
      | number default =>
          cases h
          rfl
  | cons text rest =>
      change Reads role text v at h
      cases h with
      | series hname => simp [take, takeSource, hname]
      | @length _ _ n whole positive fits =>
          obtain ⟨n, rfl⟩ := Nat.exists_eq_add_of_le' positive
          simp [take, takeLength, readLength?_eq_some_iff.mpr ⟨whole, fits⟩]
      | number reads finite => simp [take, takeNumber, reads, finite]

/-- An argument that is to blame, or missing, is where taking stops. -/
theorem Parameter.take_of_faults {p : Parameter} {arguments : List String} {fault : ArgumentFault}
    (h : p.Faults arguments.head? fault) : p.take arguments = .error fault := by
  obtain ⟨name, role⟩ := p
  cases arguments with
  | nil =>
      obtain ⟨required, rfl⟩ : Parameter.isRequired ⟨name, role⟩ = true ∧ fault = .missing name := h
      match role, required with
      | .series, _ => rfl
      | .length none, _ => rfl
  | cons text rest =>
      change Blames ⟨name, role⟩ text fault at h
      cases h with
      | series hname => simp [take, takeSource, hname]
      | zero whole =>
          simp [take, takeLength, readLength?_eq_some_iff.mpr ⟨whole, Nat.two_pow_pos 64⟩]
      | length unfit => simp [take, takeLength, readLength?_eq_none_iff.mpr unfit]
      | number unfit =>
          cases hread : Decimal.readFloat? text.toList with
          | none => simp [take, takeNumber, hread]
          | some x => simp [take, takeNumber, hread, unfit x hread]

/-- There is nothing else that an argument can do. -/
theorem Parameter.gives_or_faults (p : Parameter) (argument : Option String) :
    (∃ v, p.role.Gives argument v) ∨ ∃ fault, p.Faults argument fault := by
  obtain ⟨name, role⟩ := p
  cases argument with
  | none =>
      match role with
      | .series => exact .inr ⟨_, rfl, rfl⟩
      | .length none => exact .inr ⟨_, rfl, rfl⟩
      | .length (some n) => exact .inl ⟨.length n, rfl⟩
      | .number default => exact .inl ⟨.number default, rfl⟩
  | some text =>
      cases role with
      | series =>
          cases hname : isIdentifier text.toList with
          | true => exact .inl ⟨_, .series hname⟩
          | false => exact .inr ⟨_, .series hname⟩
      | length default =>
          match hread : readLength? text with
          | none => exact .inr ⟨_, .length (readLength?_eq_none_iff.mp hread)⟩
          | some 0 => exact .inr ⟨_, .zero (readLength?_eq_some_iff.mp hread).1⟩
          | some (n + 1) =>
              obtain ⟨whole, fits⟩ := readLength?_eq_some_iff.mp hread
              exact .inl ⟨_, .length whole (Nat.le_add_left 1 n) fits⟩
      | number default =>
          by_cases hread : ∃ x, Decimal.readFloat? text.toList = some x ∧ x.isFinite = true
          · obtain ⟨x, reads, finite⟩ := hread
            exact .inl ⟨_, .number reads finite⟩
          · refine .inr ⟨_, .number fun x reads => ?_⟩
            rw [← Bool.not_eq_true]
            exact fun finite => hread ⟨x, reads, finite⟩

theorem Parameter.take_eq_error_iff {p : Parameter} {arguments : List String}
    {fault : ArgumentFault} : p.take arguments = .error fault ↔ p.Faults arguments.head? fault := by
  constructor
  · intro htake
    rcases p.gives_or_faults arguments.head? with ⟨v, hgives⟩ | ⟨other, hfaults⟩
    · rw [take_of_gives hgives] at htake
      cases htake
    · rw [take_of_faults hfaults] at htake
      cases htake
      exact hfaults
  · exact take_of_faults

/-- An argument does not do both. -/
theorem Parameter.not_gives_of_faults {p : Parameter} {arguments : List String}
    {fault : ArgumentFault} (h : p.Faults arguments.head? fault) (v : Value) :
    ¬p.role.Gives arguments.head? v := by
  intro hgives
  have htake := take_of_gives hgives
  rw [take_of_faults h] at htake
  cases htake

/-! ### All arguments -/

/-- Take the arguments of some parameters, and see that none is left over. -/
def takeAll : List Parameter → List String → Except ArgumentFault (List Value)
  | [], [] => .ok []
  | [], found :: _ => .error (.surplus found)
  | p :: ps, arguments => do
      let (v, rest) ← p.take arguments
      let vs ← takeAll ps rest
      return v :: vs

/-- The arguments that there are, and the defaults for those that there are not, give the
parameters these values. -/
structure Suits (ps : List Parameter) (arguments : List String) (vs : List Value) : Prop where
  count : arguments.length ≤ ps.length
  total : vs.length = ps.length
  gives : ∀ (n : Nat) (p : Parameter) (v : Value), ps[n]? = some p → vs[n]? = some v →
    p.role.Gives arguments[n]? v

/-- The argument at some position, or its absence, is at fault. -/
inductive Offends (ps : List Parameter) (arguments : List String) (n : Nat) :
    ArgumentFault → Prop where
  | parameter {p : Parameter} {fault : ArgumentFault} (here : ps[n]? = some p)
      (faults : p.Faults arguments[n]? fault) : Offends ps arguments n fault
  | surplus {found : String} (past : ps[n]? = none) (here : arguments[n]? = some found) :
      Offends ps arguments n (.surplus found)

/-- What is at fault at the leftmost position where something is. -/
def FirstFault (ps : List Parameter) (arguments : List String) (fault : ArgumentFault) : Prop :=
  ∃ n, Offends ps arguments n fault ∧ ∀ m < n, ∀ other, ¬Offends ps arguments m other

variable {p : Parameter} {ps : List Parameter} {arguments : List String}

theorem offends_cons_zero {fault : ArgumentFault} :
    Offends (p :: ps) arguments 0 fault ↔ p.Faults arguments.head? fault := by
  rw [List.head?_eq_getElem?]
  constructor
  · intro hoffends
    cases hoffends with
    | parameter here faults =>
        cases here
        exact faults
    | surplus past _ => cases past
  · exact .parameter rfl

theorem offends_cons_succ {n : Nat} {fault : ArgumentFault} :
    Offends (p :: ps) arguments (n + 1) fault ↔ Offends ps arguments.tail n fault := by
  have hshift : arguments.tail[n]? = arguments[n + 1]? := List.getElem?_tail
  constructor
  · intro hoffends
    cases hoffends with
    | parameter here faults => exact .parameter here (hshift ▸ faults)
    | surplus past here => exact .surplus past (hshift.trans here)
  · intro hoffends
    cases hoffends with
    | parameter here faults => exact .parameter here (hshift ▸ faults)
    | surplus past here => exact .surplus past (hshift.symm.trans here)

theorem firstFault_iff_of_offends {found fault : ArgumentFault} (h : Offends ps arguments 0 found) :
    FirstFault ps arguments fault ↔ Offends ps arguments 0 fault :=
  isFirst_iff_of_faults h

theorem firstFault_cons_iff {fault : ArgumentFault}
    (h : ∀ other, ¬Offends (p :: ps) arguments 0 other) :
    FirstFault (p :: ps) arguments fault ↔ FirstFault ps arguments.tail fault := by
  have htail : (fun n => Offends (p :: ps) arguments (n + 1)) = Offends ps arguments.tail := by
    funext n other
    exact propext offends_cons_succ
  have hfirst : FirstFault (p :: ps) arguments fault ↔
      IsFirst (fun n => Offends (p :: ps) arguments (n + 1)) fault := isFirst_iff_of_not_faults h
  rw [hfirst, htail]
  rfl

theorem suits_cons_iff {v : Value} {vs : List Value} :
    Suits (p :: ps) arguments (v :: vs) ↔
      p.role.Gives arguments.head? v ∧ Suits ps arguments.tail vs := by
  have hshift (n : Nat) : arguments.tail[n]? = arguments[n + 1]? := List.getElem?_tail
  constructor
  · rintro ⟨count, total, gives⟩
    refine ⟨?_, ?_, by simpa using total, fun n q w hq hw => ?_⟩
    · rw [List.head?_eq_getElem?]
      exact gives 0 p v rfl rfl
    · rw [List.length_tail]
      rw [List.length_cons] at count
      omega
    · rw [hshift]
      exact gives (n + 1) q w hq hw
  · rintro ⟨hhead, count, total, gives⟩
    refine ⟨?_, by simpa using total, fun n q w hq hw => ?_⟩
    · rw [List.length_tail] at count
      rw [List.length_cons]
      omega
    · cases n with
      | zero =>
          cases hq
          cases hw
          rwa [← List.head?_eq_getElem?]
      | succ n =>
          rw [← hshift]
          exact gives n q w hq hw

/-- One parameter after the other. -/
theorem takeAll_of_gives {v : Value} (h : p.role.Gives arguments.head? v) :
    takeAll (p :: ps) arguments = (takeAll ps arguments.tail).map (v :: ·) := by
  rw [takeAll, Parameter.take_of_gives h]
  show (do return v :: (← takeAll ps arguments.tail)) = _
  cases takeAll ps arguments.tail with
  | error fault => rfl
  | ok vs => rfl

theorem takeAll_of_faults {fault : ArgumentFault} (h : p.Faults arguments.head? fault) :
    takeAll (p :: ps) arguments = .error fault := by
  rw [takeAll, Parameter.take_of_faults h]
  rfl

/-- **Arguments are accepted** if there are not too many and each parameter has a value. -/
theorem takeAll_eq_ok_iff {vs : List Value} :
    takeAll ps arguments = .ok vs ↔ Suits ps arguments vs := by
  induction ps generalizing arguments vs with
  | nil =>
      cases arguments with
      | nil =>
          constructor
          · intro hok
            cases hok
            exact ⟨Nat.le_refl 0, rfl, fun n p v hp => by simp at hp⟩
          · rintro ⟨-, total, -⟩
            rw [List.length_eq_zero_iff.mp total, takeAll]
      | cons found rest =>
          refine iff_of_false ?_ fun ⟨count, _, _⟩ => Nat.not_succ_le_zero _ count
          intro hok
          cases hok
  | cons p ps ih =>
      constructor
      · intro hok
        rcases p.gives_or_faults arguments.head? with ⟨v, hgives⟩ | ⟨fault, hfaults⟩
        · rw [takeAll_of_gives hgives] at hok
          cases hrest : takeAll ps arguments.tail with
          | error fault =>
              rw [hrest] at hok
              cases hok
          | ok rest =>
              rw [hrest] at hok
              cases hok
              exact suits_cons_iff.mpr ⟨hgives, ih.mp hrest⟩
        · rw [takeAll_of_faults hfaults] at hok
          cases hok
      · intro hsuits
        obtain ⟨v, rest, rfl⟩ := List.exists_cons_of_length_eq_add_one hsuits.total
        obtain ⟨hgives, hrest⟩ := suits_cons_iff.mp hsuits
        rw [takeAll_of_gives hgives, ih.mpr hrest]
        rfl

/-- **The first argument at fault is reported**, or the first parameter that has none. -/
theorem takeAll_eq_error_iff {fault : ArgumentFault} :
    takeAll ps arguments = .error fault ↔ FirstFault ps arguments fault := by
  induction ps generalizing arguments with
  | nil =>
      cases arguments with
      | nil =>
          refine iff_of_false (fun herror => by cases herror) fun ⟨n, hoffends, _⟩ => ?_
          cases hoffends with
          | parameter here _ => simp at here
          | surplus _ here => simp at here
      | cons found rest =>
          have hfound : Offends [] (found :: rest) 0 (.surplus found) := .surplus rfl rfl
          rw [firstFault_iff_of_offends hfound]
          constructor
          · intro herror
            cases herror
            exact hfound
          · intro hoffends
            cases hoffends with
            | parameter here _ => cases here
            | surplus _ here =>
                cases here
                rfl
  | cons p ps ih =>
      -- If the front argument is good, what is at fault is one of the others, a position earlier
      -- among them; if it is not, nothing stands further left.
      rcases p.gives_or_faults arguments.head? with ⟨v, hgives⟩ | ⟨found, hfaults⟩
      · have hzero : ∀ other, ¬Offends (p :: ps) arguments 0 other := by
          intro other hoffends
          exact Parameter.not_gives_of_faults (offends_cons_zero.mp hoffends) v hgives
        rw [firstFault_cons_iff hzero, ← ih, takeAll_of_gives hgives]
        cases takeAll ps arguments.tail with
        | error other => rfl
        | ok vs => exact iff_of_false (fun h => by cases h) fun h => by cases h
      · rw [firstFault_iff_of_offends (offends_cons_zero.mpr hfaults), offends_cons_zero,
          takeAll_of_faults hfaults, ← Parameter.take_eq_error_iff,
          Parameter.take_of_faults hfaults]
        exact ⟨fun h => by cases h; rfl, fun h => by cases h; rfl⟩

/-! ### Decoding -/

theorem complete_eq (i : Indicator) (arguments : List String) :
    (do
      let j ← complete i arguments
      return (j.kind, j.values)) =
    (do return (i.kind, i.values ++ (← takeAll [] arguments))) := by
  cases arguments with
  | nil =>
      show Except.ok (i.kind, i.values) = .ok (i.kind, i.values ++ [])
      rw [List.append_nil]
  | cons found rest => rfl

/-- **Decoding a call is walking along the parameters of its kind.** -/
theorem decode_eq (kind : Kind) (arguments : List String) :
    (do
      let i ← decode kind arguments
      return (i.kind, i.values)) =
    (do return (kind, ← takeAll kind.parameters arguments)) := by
  -- `complete_eq` speaks of values that are still folded, so these unfold last.
  cases kind <;>
    simp only [decode, decodeSingle, takeAll, Kind.parameters, Parameter.take, bind_assoc,
      pure_bind, complete_eq] <;>
    simp only [values, Indicator.kind, List.cons_append, List.nil_append]

/-- Both end in the same way. -/
theorem decode_cases (kind : Kind) (arguments : List String) :
    (∃ i, decode kind arguments = .ok i ∧ i.kind = kind ∧
      takeAll kind.parameters arguments = .ok i.values) ∨
    ∃ fault, decode kind arguments = .error fault ∧
      takeAll kind.parameters arguments = .error fault := by
  have heq := decode_eq kind arguments
  cases hdecode : decode kind arguments with
  | error fault =>
      cases htake : takeAll kind.parameters arguments with
      | error other =>
          rw [hdecode, htake] at heq
          cases heq
          exact .inr ⟨fault, rfl, rfl⟩
      | ok vs =>
          rw [hdecode, htake] at heq
          cases heq
  | ok i =>
      cases htake : takeAll kind.parameters arguments with
      | error other =>
          rw [hdecode, htake] at heq
          cases heq
      | ok vs =>
          rw [hdecode, htake] at heq
          obtain ⟨hkind, hvalues⟩ := Prod.mk.inj (Except.ok.inj heq)
          exact .inl ⟨i, rfl, hkind, congrArg Except.ok hvalues.symm⟩

theorem decode_eq_ok_iff {kind : Kind} {arguments : List String} {i : Indicator} :
    decode kind arguments = .ok i ↔
      i.kind = kind ∧ Suits kind.parameters arguments i.values := by
  rw [← takeAll_eq_ok_iff]
  rcases decode_cases kind arguments with ⟨j, hdecode, hkind, htake⟩ | ⟨fault, hdecode, htake⟩
  · rw [hdecode, htake, Except.ok.injEq, Except.ok.injEq]
    constructor
    · rintro rfl
      exact ⟨hkind, rfl⟩
    · rintro ⟨hkind', hvalues⟩
      exact eq_of_values (hkind.trans hkind'.symm) hvalues
  · rw [hdecode, htake]
    exact iff_of_false (fun h => by cases h) fun h => by cases h.2

theorem decode_eq_error_iff {kind : Kind} {arguments : List String} {fault : ArgumentFault} :
    decode kind arguments = .error fault ↔ FirstFault kind.parameters arguments fault := by
  rw [← takeAll_eq_error_iff]
  rcases decode_cases kind arguments with ⟨i, hdecode, -, htake⟩ | ⟨found, hdecode, htake⟩
  · rw [hdecode, htake]
    exact iff_of_false (fun h => by cases h) fun h => by cases h
  · rw [hdecode, htake, Except.error.injEq, Except.error.injEq]

/-! ### Which calls are accepted -/

/-- A parameter has a value if its argument reads as one, or if it may do without. -/
theorem exists_gives_iff {kind : Kind} {n : Nat} {p : Parameter} {arguments : List String}
    (h : kind.parameters[n]? = some p) :
    (∃ v, p.role.Gives arguments[n]? v) ↔
      (n < kind.required → n < arguments.length) ∧
        ∀ text, arguments[n]? = some text → ∃ v, Reads p.role text v := by
  rw [← isRequired_iff h]
  cases hargument : arguments[n]? with
  | none =>
      have hn : ¬n < arguments.length := Nat.not_lt.mpr (List.getElem?_eq_none_iff.mp hargument)
      have hdefault : (∃ v, p.role.Gives none v) ↔ ¬p.isRequired = true := by
        rw [Parameter.isRequired, Option.isNone_iff_eq_none]
        exact Option.ne_none_iff_exists'.symm
      simp [hdefault, hn]
  | some text =>
      have hn := (List.getElem?_eq_some_iff.mp hargument).1
      refine ⟨fun hgives => ⟨fun _ => hn, fun other hother => ?_⟩, fun h => h.2 text rfl⟩
      cases hother
      exact hgives

/-- A call is accepted if it has neither too few nor too many arguments and each of them reads as
a value for its parameter. -/
theorem exists_decode_eq_ok_iff {kind : Kind} {arguments : List String} :
    (∃ i, decode kind arguments = .ok i) ↔
      kind.required ≤ arguments.length ∧ arguments.length ≤ kind.parameters.length ∧
        ∀ (n : Nat) (p : Parameter) (text : String), kind.parameters[n]? = some p →
          arguments[n]? = some text → ∃ v, Reads p.role text v := by
  constructor
  · rintro ⟨i, hdecode⟩
    obtain ⟨rfl, count, total, gives⟩ := decode_eq_ok_iff.mp hdecode
    have hvalue (n : Nat) (p : Parameter) (hp : i.kind.parameters[n]? = some p) :
        ∃ v, p.role.Gives arguments[n]? v := by
      obtain ⟨hn, -⟩ := List.getElem?_eq_some_iff.mp hp
      exact ⟨_, gives n p _ hp (List.getElem?_eq_getElem (total.symm ▸ hn))⟩
    refine ⟨?_, count, fun n p text hp => ((exists_gives_iff hp).mp (hvalue n p hp)).2 text⟩
    -- Behind too few arguments the next parameter would be one that must be given.
    by_contra hfew
    rw [Nat.not_le] at hfew
    have hp := List.getElem?_eq_getElem (Nat.lt_of_lt_of_le hfew List.countP_le_length)
    exact Nat.lt_irrefl _ (((exists_gives_iff hp).mp (hvalue _ _ hp)).1 hfew)
  · rintro ⟨hfew, hmany, hreads⟩
    cases hdecode : decode kind arguments with
    | ok i => exact ⟨i, rfl⟩
    | error fault =>
        obtain ⟨n, hoffends, -⟩ := decode_eq_error_iff.mp hdecode
        cases hoffends with
        | @parameter p _ hp faults =>
            obtain ⟨v, hgives⟩ := (exists_gives_iff hp).mpr
              ⟨fun hn => Nat.lt_of_lt_of_le hn hfew, fun text => hreads n p text hp⟩
            rw [← List.head?_drop] at faults hgives
            exact absurd hgives (Parameter.not_gives_of_faults faults v)
        | surplus past here =>
            have hn := (List.getElem?_eq_some_iff.mp here).1
            have hp := List.getElem?_eq_none_iff.mp past
            omega

/-! ### What is reported -/

/-- The parameters of a kind have different names, so a name tells a position. -/
theorem Kind.nodup_names (kind : Kind) : (kind.parameters.map Parameter.name).Nodup := by
  cases kind <;> decide

/-- What can be said of a position where something is wrong.  A parameter that must be given and is
not is named, an argument that does not suit its parameter is quoted behind the name, and behind
the last parameter there is only the argument to quote. -/
inductive Tells (ps : List Parameter) (arguments : List String) (n : Nat) : String → Prop where
  | missing {p : Parameter} (here : ps[n]? = some p) (required : p.isRequired = true)
      (absent : arguments[n]? = none) : Tells ps arguments n ("missing \x60" ++ p.name ++ "\x60")
  | series {name text : String} (here : ps[n]? = some ⟨name, .series⟩)
      (given : arguments[n]? = some text) (other : isIdentifier text.toList = false) :
      Tells ps arguments n
        ("expected series name for \x60" ++ name ++ "\x60, found '" ++ text ++ "'")
  | zero {name text : String} {default : Option Nat} (here : ps[n]? = some ⟨name, .length default⟩)
      (given : arguments[n]? = some text) (whole : IsWholeNumber text 0) :
      Tells ps arguments n ("\x60" ++ name ++ "\x60 must be positive")
  | length {name text : String} {default : Option Nat}
      (here : ps[n]? = some ⟨name, .length default⟩) (given : arguments[n]? = some text)
      (unfit : ∀ length, IsWholeNumber text length → 2 ^ 64 ≤ length) :
      Tells ps arguments n
        ("expected positive integer for \x60" ++ name ++ "\x60, found '" ++ text ++ "'")
  | number {name text : String} {default : Float} (here : ps[n]? = some ⟨name, .number default⟩)
      (given : arguments[n]? = some text)
      (unfit : ∀ x, Decimal.readFloat? text.toList = some x → x.isFinite = false) :
      Tells ps arguments n ("expected number for \x60" ++ name ++ "\x60, found '" ++ text ++ "'")
  | surplus {text : String} (past : ps[n]? = none) (given : arguments[n]? = some text) :
      Tells ps arguments n ("unexpected argument '" ++ text ++ "'")

/-- **The wording of a fault tells what is wrong where it is.** -/
theorem Offends.tells {n : Nat} {fault : ArgumentFault} (h : Offends ps arguments n fault) :
    Tells ps arguments n fault.message := by
  cases h with
  | surplus past here => exact .surplus past here
  | @parameter p _ here faults =>
      cases hargument : arguments[n]? with
      | none =>
          rw [hargument] at faults
          obtain ⟨required, rfl⟩ := faults
          exact .missing here required hargument
      | some text =>
          rw [hargument] at faults
          cases faults with
          | series other => exact .series here hargument other
          | zero whole => exact .zero here hargument whole
          | length unfit => exact .length here hargument unfit
          | number unfit => exact .number here hargument unfit

/-- **The calls that are accepted, and what is reported of the others.**  A call is accepted if it
has neither too few nor too many arguments and each of them reads as a value for its parameter.
Its parameters then are what the arguments read as, and the defaults where there are no more
arguments.  Any other call has a leftmost position where something is wrong, an argument, a missing
argument or a surplus one, and that is what is reported.  The message names the call and then tells
what is wrong there; no two parameters of a kind have one name, so it names the position too. -/
theorem decode_accepts_suitable_arguments (kind : Kind) (arguments : List String) :
    ((∃ i, decode kind arguments = .ok i) ↔
      kind.required ≤ arguments.length ∧ arguments.length ≤ kind.parameters.length ∧
        ∀ (n : Nat) (p : Parameter) (text : String), kind.parameters[n]? = some p →
          arguments[n]? = some text → ∃ v, Reads p.role text v) ∧
    (∀ i, decode kind arguments = .ok i ↔
      i.kind = kind ∧ Suits kind.parameters arguments i.values) ∧
    (∀ fault, decode kind arguments = .error fault ↔
      FirstFault kind.parameters arguments fault) ∧
    (∀ fault, FirstFault kind.parameters arguments fault →
      (ScriptFault.invalidArgument kind fault).message =
        "invalid argument to ta." ++ kind.name ++ ": " ++ fault.message ∧
      (∃ n, Offends kind.parameters arguments n fault ∧
        (∀ m < n, ∀ other, ¬Offends kind.parameters arguments m other) ∧
        Tells kind.parameters arguments n fault.message) ∧
      ∀ inner, IsArgumentList inner → (split inner).map String.ofList = arguments →
        readCall? (callText kind inner) = some (.error (.invalidArgument kind fault))) ∧
    (kind.parameters.map Parameter.name).Nodup := by
  refine ⟨exists_decode_eq_ok_iff, fun i => decode_eq_ok_iff, fun fault => decode_eq_error_iff,
    fun fault hfault => ⟨rfl, ?_, fun inner hinner harguments => ?_⟩, kind.nodup_names⟩
  · obtain ⟨n, hoffends, hfirst⟩ := hfault
    exact ⟨n, hoffends, hfirst, hoffends.tells⟩
  · rw [readCall?_of_isArgumentList hinner, decoded, harguments, decode_eq_error_iff.mpr hfault]

/-- The multiplier may be left out and a length may have a plus sign; a length of zero is reported,
not the argument behind it that no parameter is left for.  That one is reported if the lengths are
good. -/
theorem decode_blames_zero_before_surplus :
    (∃ i, decode .bollinger ["close", "+020"] = .ok i) ∧
    FirstFault Kind.stoch.parameters ["14", "0", "3"] (.notPositive "d") ∧
    readCall? (callText .stoch "14, 0, 3".toList) =
      some (.error (.invalidArgument .stoch (.notPositive "d"))) ∧
    (ScriptFault.invalidArgument .stoch (.notPositive "d")).message =
      "invalid argument to ta.stoch: \x60d\x60 must be positive" ∧
    FirstFault Kind.stoch.parameters ["14", "2", "3"] (.surplus "3") ∧
    (ScriptFault.invalidArgument .stoch (.surplus "3")).message =
      "invalid argument to ta.stoch: unexpected argument '3'" := by
  obtain ⟨haccepted, -, -, -, -⟩ := decode_accepts_suitable_arguments .bollinger ["close", "+020"]
  obtain ⟨-, -, hrejected, hreported, -⟩ :=
    decode_accepts_suitable_arguments .stoch ["14", "0", "3"]
  obtain ⟨-, -, hsurplus, hbehind, -⟩ := decode_accepts_suitable_arguments .stoch ["14", "2", "3"]
  have hfault := (hrejected (.notPositive "d")).mp (by decide +kernel)
  have hlast := (hsurplus (.surplus "3")).mp (by decide +kernel)
  refine ⟨haccepted.mpr ⟨by decide, by decide, ?_⟩, hfault,
    (hreported _ hfault).2.2 _ (by decide) (by decide),
    (hreported _ hfault).1.trans (by decide +kernel), hlast,
    (hbehind _ hlast).1.trans (by decide +kernel)⟩
  intro n p text hp htext
  match n with
  | 0 =>
      cases hp
      cases htext
      exact ⟨_, .series (by decide)⟩
  | 1 =>
      cases hp
      cases htext
      exact ⟨.length 20, .length ⟨['+'], "020".toList, by decide, .inr rfl, by decide,
        forall_mem_of_all (by decide), by decide⟩ (by decide) (by decide)⟩
  | n + 2 => simp at htext

end Indicator

end ChartScript
