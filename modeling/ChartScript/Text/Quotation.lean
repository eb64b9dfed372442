/-
Quoted runs and nested parentheses, read one character at a time.

Either kind of quote character opens a quoted run, the same kind closes it, and
the other kind means nothing inside it.  A quote character that a backslash
precedes neither opens nor closes, inside a run or outside one.

Every reader of a script line shares the two scanners of this module, so no two of
them can disagree on which commas, parentheses and comment marks are quoted.
-/

namespace ChartScript.Text

/-- A double or a single quote. -/
def isQuote (c : Char) : Bool :=
  c == '\x22' || c == '\x27'

/-- Where a scan stands with respect to quoted runs. -/
structure Quotation where
  /-- The quote character of the run that is open, if one is. -/
  opener : Option Char
  /-- Whether a backslash was the last character read. -/
  escaping : Bool
deriving DecidableEq, Repr

namespace Quotation

/-- Where every scan starts: no run is open. -/
def start : Quotation := ⟨none, false⟩

/-- No run is open. -/
def isOutside (q : Quotation) : Bool :=
  q.opener.isNone

/-- Reading one character. -/
def next (q : Quotation) (c : Char) : Quotation where
  opener :=
    if isQuote c && !q.escaping then
      match q.opener with
      | none => some c
      | some o => if o == c then none else some o
    else q.opener
  escaping := c == '\\'

/-- Reading a text. -/
def after (q : Quotation) (cs : List Char) : Quotation :=
  cs.foldl next q

@[simp] theorem after_nil (q : Quotation) : q.after [] = q := rfl

@[simp] theorem after_cons (q : Quotation) (c : Char) (cs : List Char) :
    q.after (c :: cs) = (q.next c).after cs := rfl

theorem after_append (q : Quotation) (xs ys : List Char) :
    q.after (xs ++ ys) = (q.after xs).after ys := by
  simp [after, List.foldl_append]

/-- Only a quote character opens or closes a run. -/
theorem opener_next_of_not_quote {c : Char} (h : isQuote c = false) (q : Quotation) :
    (q.next c).opener = q.opener := by
  simp [next, h]

end Quotation

/-- Where a scan stands with respect to quoted runs and to parentheses outside
them. -/
structure Nesting where
  quotation : Quotation
  /-- How many parentheses are open. -/
  depth : Nat
deriving DecidableEq, Repr

namespace Nesting

/-- Outside every quoted run, with `depth` parentheses open. -/
def atDepth (depth : Nat) : Nesting := ⟨.start, depth⟩

/-- Reading one character.  A closing parenthesis too many leaves the depth at
zero. -/
def next (n : Nesting) (c : Char) : Nesting where
  quotation := n.quotation.next c
  depth :=
    if n.quotation.isOutside then
      if c == '(' then n.depth + 1
      else if c == ')' then n.depth - 1
      else n.depth
    else n.depth

/-- Reading a text. -/
def after (n : Nesting) (cs : List Char) : Nesting :=
  cs.foldl next n

/-- Outside every quoted run and every parenthesis. -/
def isTop (n : Nesting) : Bool :=
  n.quotation.isOutside && n.depth == 0

@[simp] theorem after_nil (n : Nesting) : n.after [] = n := rfl

@[simp] theorem after_cons (n : Nesting) (c : Char) (cs : List Char) :
    n.after (c :: cs) = (n.next c).after cs := rfl

theorem after_append (n : Nesting) (xs ys : List Char) :
    n.after (xs ++ ys) = (n.after xs).after ys := by
  simp [after, List.foldl_append]

end Nesting

/-- The code in front of a `//` that stands outside quoted runs, reading on from
`q`; all of the text if there is none. -/
def codeFrom (q : Quotation) : List Char → List Char
  | [] => []
  | c :: rest =>
      if c == '/' && q.isOutside && rest.head? == some '/' then []
      else c :: codeFrom (q.next c) rest

/-- A line without its trailing comment. -/
def withoutComment (cs : List Char) : List Char :=
  codeFrom .start cs

end ChartScript.Text
