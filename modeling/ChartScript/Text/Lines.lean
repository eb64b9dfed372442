/-
Lines and byte offsets.

A line ends at a line feed, and one carriage return just before that line feed
belongs to the ending.  A carriage return anywhere else is part of the line.  The
text after the last line feed is a line of its own unless it is empty, so a text
with a final line feed has no empty line behind it.

Positions in a text are counted in bytes of its UTF-8 form.
-/

namespace ChartScript.Text

/-- The lines of a text, where `current` holds the characters of the line being
read, last one first. -/
def linesFrom (current : List Char) : List Char → List (List Char)
  | [] => if current.isEmpty then [] else [current.reverse]
  | '\n' :: rest =>
      (match current with
        | '\r' :: before => before.reverse
        | whole => whole.reverse) :: linesFrom [] rest
  | c :: rest => linesFrom (c :: current) rest

/-- The lines of a text, without their endings. -/
def lines (cs : List Char) : List (List Char) :=
  linesFrom [] cs

/-- The number of bytes a text takes. -/
def byteLength : List Char → Nat
  | [] => 0
  | c :: cs => c.utf8Size + byteLength cs

@[simp] theorem byteLength_nil : byteLength [] = 0 := rfl

@[simp] theorem byteLength_cons (c : Char) (cs : List Char) :
    byteLength (c :: cs) = c.utf8Size + byteLength cs := rfl

/-- Lengths in bytes add up. -/
@[simp] theorem byteLength_append (xs ys : List Char) :
    byteLength (xs ++ ys) = byteLength xs + byteLength ys := by
  induction xs with
  | nil => simp
  | cons c cs ih => simp [ih, Nat.add_assoc]

/-- The two parts of a text before and from a byte offset.  An offset inside a
character, or past the end, has none. -/
def splitAtByte : Nat → List Char → Option (List Char × List Char)
  | 0, cs => some ([], cs)
  | _ + 1, [] => none
  | n + 1, c :: cs =>
      if c.utf8Size ≤ n + 1 then
        (splitAtByte (n + 1 - c.utf8Size) cs).map fun (before, after) => (c :: before, after)
      else none
termination_by _ cs => cs.length

/-- Cutting at an offset loses nothing, and what comes before is that long. -/
theorem splitAtByte_eq_some {n : Nat} {cs before after : List Char}
    (h : splitAtByte n cs = some (before, after)) :
    before ++ after = cs ∧ byteLength before = n := by
  fun_induction splitAtByte n cs generalizing before after with
  | case1 => simp_all
  | case2 => simp at h
  | case3 n c cs hle ih =>
      obtain ⟨⟨b, a⟩, hsplit, heq⟩ := Option.map_eq_some_iff.mp h
      simp only [Prod.mk.injEq] at heq
      obtain ⟨rfl, rfl⟩ := heq
      obtain ⟨happ, hlen⟩ := ih hsplit
      simp only [List.cons_append, happ, byteLength_cons, true_and]
      omega
  | case4 => simp at h

end ChartScript.Text
