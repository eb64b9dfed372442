/-
Checks one after another.

A reader that stops at its first fault is a chain of checks, each of which fails if something is
at fault at its own place.  The chain then fails with what is at fault at the first place where
anything is: `bind_eq_error_iff_isFirst` puts one check in front of such a chain.
-/

namespace ChartScript

variable {ε α β : Type}

/-- What succeeds in two steps succeeds in the first and, behind it, in the second. -/
theorem bind_eq_ok_iff {x : Except ε α} {f : α → Except ε β} {b : β} :
    (x >>= f) = .ok b ↔ ∃ a, x = .ok a ∧ f a = .ok b := by
  constructor
  · intro h
    cases x with
    | error e => cases h
    | ok a => exact ⟨a, rfl, h⟩
  · rintro ⟨a, rfl, h⟩
    exact h

/-- What fails in two steps fails in the first or, behind it, in the second. -/
theorem bind_eq_error_iff {x : Except ε α} {f : α → Except ε β} {e : ε} :
    (x >>= f) = .error e ↔ x = .error e ∨ ∃ a, x = .ok a ∧ f a = .error e := by
  constructor
  · intro h
    cases x with
    | error other =>
        cases h
        exact Or.inl rfl
    | ok a => exact Or.inr ⟨a, rfl, h⟩
  · rintro (rfl | ⟨a, rfl, h⟩)
    · rfl
    · exact h

/-- What is at fault at the first place where something is. -/
def IsFirst (faults : Nat → ε → Prop) (e : ε) : Prop :=
  ∃ n, faults n e ∧ ∀ m < n, ∀ other, ¬faults m other

variable {faults : Nat → ε → Prop} {e : ε}

theorem isFirst_iff_of_faults {found : ε} (h : faults 0 found) :
    IsFirst faults e ↔ faults 0 e := by
  constructor
  · rintro ⟨n, hfaults, hfirst⟩
    have hn : n = 0 := Nat.eq_zero_of_not_pos fun hpos => hfirst 0 hpos found h
    rwa [hn] at hfaults
  · exact fun hfaults => ⟨0, hfaults, fun m hm => absurd hm (Nat.not_lt_zero m)⟩

theorem isFirst_iff_of_not_faults (h : ∀ other, ¬faults 0 other) :
    IsFirst faults e ↔ IsFirst (fun n => faults (n + 1)) e := by
  constructor
  · rintro ⟨n, hfaults, hfirst⟩
    cases n with
    | zero => exact absurd hfaults (h e)
    | succ n => exact ⟨n, hfaults, fun m hm => hfirst (m + 1) (Nat.succ_lt_succ hm)⟩
  · rintro ⟨n, hfaults, hfirst⟩
    refine ⟨n + 1, hfaults, fun m hm other => ?_⟩
    cases m with
    | zero => exact h other
    | succ m => exact hfirst m (Nat.lt_of_succ_lt_succ hm) other

end ChartScript
