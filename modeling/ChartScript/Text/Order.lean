/-
The order of names.

Names are listed by the code points of their characters, compared from the first
character on; a name comes before its own continuations.  This is also the order of
their UTF-8 bytes.
-/

namespace ChartScript.Text

/-- Whether a text comes before another or is the same. -/
def ordered : List Char → List Char → Bool
  | [], _ => true
  | _ :: _, [] => false
  | a :: as, b :: bs =>
      if a.toNat == b.toNat then ordered as bs else decide (a.toNat < b.toNat)

/-- Names in ascending order. -/
def sortNames (names : List String) : List String :=
  names.mergeSort fun a b => ordered a.toList b.toList

theorem ordered_total (a b : List Char) : (ordered a b || ordered b a) = true := by
  induction a generalizing b with
  | nil => simp [ordered]
  | cons c cs ih =>
      cases b with
      | nil => simp [ordered]
      | cons d ds =>
          by_cases h : c.toNat = d.toNat
          · have := ih ds
            simpa [ordered, h] using this
          · have h' : ¬d.toNat = c.toNat := fun e => h e.symm
            simp only [ordered, beq_iff_eq, h, h', if_false, Bool.or_eq_true,
              decide_eq_true_eq]
            omega

theorem ordered_trans {a b c : List Char} (hab : ordered a b = true)
    (hbc : ordered b c = true) : ordered a c = true := by
  induction a generalizing b c with
  | nil => rfl
  | cons x xs ih =>
      cases b with
      | nil => simp [ordered] at hab
      | cons y ys =>
          cases c with
          | nil => simp [ordered] at hbc
          | cons z zs =>
              simp only [ordered, beq_iff_eq] at hab hbc ⊢
              split at hab <;> split at hbc <;> split
              · exact ih hab hbc
              · omega
              · simp only [decide_eq_true_eq] at hbc; omega
              · simp only [decide_eq_true_eq] at hbc ⊢; omega
              · simp only [decide_eq_true_eq] at hab; omega
              · simp only [decide_eq_true_eq] at hab ⊢; omega
              · simp only [decide_eq_true_eq] at hab hbc; omega
              · simp only [decide_eq_true_eq] at hab hbc ⊢; omega

/-- Sorting leaves the names as they are, each as often as before. -/
theorem sortNames_perm (names : List String) : (sortNames names).Perm names :=
  List.mergeSort_perm names _

end ChartScript.Text
