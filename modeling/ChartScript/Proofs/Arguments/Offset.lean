/-
Finding an argument list by offsets.

The reader goes over the characters of a text from an opening parenthesis on and keeps the offset
of each.  It counts the parentheses that are open, down at each one that closes, and when none is
left it cuts the text at the offset where it stands, and at the ones next to either parenthesis.

A parenthesis takes one byte, so all of these are boundaries.  And the depth is never counted below
zero: the reader stops when the first parenthesis is closed, so whenever it goes on one is open.
-/
import ChartScript.Arguments
import ChartScript.Proofs.Text.Offset

namespace ChartScript

open Text

namespace Arguments

/-- Read on from an offset for the parenthesis that matches the one at `opens`.  The text between
them and the text behind are cut out of `input`. -/
def closingAt? (input : List Char) (opens : Nat) (n : Nesting) (offset : Nat) :
    List Char → Option (Except ParseError (List Char × List Char))
  | [] => some (.error ⟨.expectedClose none, byteLength input⟩)
  | c :: rest =>
      if c == ')' && n.quotation.isOutside then
        (minus? n.depth 1).bind fun depth =>
          if depth == 0 then
            (slice? input (opens + 1) offset).bind fun inner =>
              (from? input (offset + 1)).map fun after => .ok (inner, after)
          else closingAt? input opens ⟨n.quotation.next c, depth⟩ (offset + c.utf8Size) rest
      else closingAt? input opens (n.next c) (offset + c.utf8Size) rest

/-- The text between the parenthesis at an offset and the one that matches it, and what follows. -/
def enclosedAt? (input : List Char) (opens : Nat) :
    Option (Except ParseError (List Char × List Char)) :=
  (from? input opens).bind fun
    | [] => some (.error ⟨.expectedOpen none, opens⟩)
    | c :: rest =>
        if c == '(' then closingAt? input opens (.atDepth 0) opens (c :: rest)
        else some (.error ⟨.expectedOpen (some c), opens⟩)

/-- Reading on with a parenthesis open leaves one open, except where it is closed. -/
theorem depth_next_pos {n : Nesting} {c : Char} (hdepth : 0 < n.depth)
    (hc : ¬(c == ')' && n.quotation.isOutside) = true) : 0 < (n.next c).depth := by
  simp only [Nesting.next]
  split
  · rename_i houtside
    split
    · exact Nat.succ_pos _
    split
    · rename_i hclose
      rw [hclose, houtside] at hc
      exact absurd rfl hc
    · exact hdepth
  · exact hdepth

/-- The text inside a pair of parentheses is cut out next to them. -/
theorem slice?_parentheses (front inner after : List Char) :
    slice? (front ++ '(' :: (inner ++ ')' :: after)) (byteLength front + 1)
      (byteLength (front ++ '(' :: inner)) = some inner := by
  have hsize : '('.utf8Size = 1 := rfl
  have hslice := slice?_append (front ++ ['(']) inner (')' :: after)
  simpa [hsize, Nat.add_assoc] using hslice

theorem from?_parentheses (front inner after : List Char) :
    from? (front ++ '(' :: (inner ++ ')' :: after)) (byteLength (front ++ '(' :: inner) + 1) =
      some after := by
  have hsize : ')'.utf8Size = 1 := rfl
  have hfrom := from?_append (front ++ '(' :: inner ++ [')']) after
  simpa [hsize, Nat.add_assoc] using hfrom

/-- While a parenthesis is open, what is found by offsets is what closes it. -/
theorem closingAt?_append (front inner rest : List Char) {n : Nesting} (hdepth : 0 < n.depth) :
    closingAt? (front ++ '(' :: (inner ++ rest)) (byteLength front) n
        (byteLength (front ++ '(' :: inner)) rest =
      some (match closing n rest with
        | some (more, after) => .ok (inner ++ more, after)
        | none =>
            .error ⟨.expectedClose none, byteLength (front ++ '(' :: (inner ++ rest))⟩) := by
  induction rest generalizing n inner with
  | nil => rfl
  | cons c rest ih =>
      have hoffset : byteLength (front ++ '(' :: inner) + c.utf8Size =
          byteLength (front ++ '(' :: (inner ++ [c])) := by
        simp [Nat.add_assoc]
      -- Where the reader goes on, the character comes to the text inside.
      have hmore := ih (inner ++ [c]) (n := n.next c)
      rw [List.append_assoc, List.singleton_append, ← hoffset] at hmore
      rw [closingAt?, closing]
      by_cases hc : (c == ')' && n.quotation.isOutside) = true
      · obtain ⟨hclose, houtside⟩ := Bool.and_eq_true_iff.mp hc
        obtain rfl := beq_iff_eq.mp hclose
        obtain ⟨m, hm⟩ : ∃ m, n.depth = m + 1 := Nat.exists_eq_add_one.mpr hdepth
        have hnext : n.next ')' = ⟨n.quotation.next ')', m⟩ := by
          simp [Nesting.next, houtside, hm]
        rw [if_pos hc, hc, Bool.true_and, hm, minus?_eq, Option.bind_some, ← hnext]
        by_cases hlast : m = 0
        · subst hlast
          simp only [Nat.zero_add, beq_self_eq_true, if_true, slice?_parentheses,
            from?_parentheses, Option.bind_some, Option.map_some, List.append_nil]
        · have hopen : 0 < (n.next ')').depth := by
            rw [hnext]
            exact Nat.pos_of_ne_zero hlast
          rw [if_neg (by simpa using hlast), if_neg (by simpa using hlast), hmore hopen]
          cases closing (n.next ')') rest <;> simp
      · have hstays : ¬(c == ')' && n.quotation.isOutside && n.depth == 1) = true := fun h =>
          hc (Bool.and_eq_true_iff.mp h).1
        rw [if_neg hc, if_neg hstays, hmore (depth_next_pos hdepth hc)]
        cases closing (n.next c) rest <;> simp

/-- **At a boundary the same is found as in the text from there on.** -/
theorem enclosedAt?_append (front tail : List Char) :
    enclosedAt? (front ++ tail) (byteLength front) = some (enclosed (byteLength front) tail) := by
  rw [enclosedAt?, from?_append, Option.bind_some]
  cases tail with
  | nil => rfl
  | cons c rest =>
      simp only [enclosed]
      split
      · rename_i hopen
        obtain rfl := beq_iff_eq.mp hopen
        have hstays : ¬('(' == ')' && (Nesting.atDepth 0).quotation.isOutside) = true := by decide
        have hnext : (Nesting.atDepth 0).next '(' = .atDepth 1 := rfl
        have hoffset : byteLength front + '('.utf8Size = byteLength (front ++ ['(']) := by simp
        have hclosing := closingAt?_append front [] rest (n := .atDepth 1) (Nat.succ_pos 0)
        rw [List.nil_append] at hclosing
        rw [closingAt?, if_neg hstays, hnext, hoffset, hclosing, ← byteLength_append]
        cases closing (.atDepth 1) rest <;> rfl
      · rfl

theorem enclosedAt?_zero (cs : List Char) : enclosedAt? cs 0 = some (enclosed 0 cs) :=
  enclosedAt?_append [] cs

end Arguments

end ChartScript
