/-
Arithmetic over series.

An arithmetic expression is evaluated at each bar by itself.  It fails there when a
name is not bound, when a divisor is zero, and when any of its results is infinite;
an undefined operand is no failure but makes the result undefined.  A bar where the
expression fails is undefined in its series, and the other bars do not notice.
-/
import ChartScript.Decimal.Layout
import ChartScript.SymbolTable

namespace ChartScript

/-- An arithmetic operation on two operands. -/
inductive Operation where
  | add
  | sub
  | mul
  | div
deriving DecidableEq, Repr

/-- The character that stands for an operation. -/
def Operation.character : Operation → Char
  | .add => '+'
  | .sub => '-'
  | .mul => '*'
  | .div => '/'

/-- An arithmetic expression. -/
inductive Arithmetic where
  | number (value : Float)
  | symbol (name : String)
  | neg (operand : Arithmetic)
  | binary (operation : Operation) (left right : Arithmetic)
deriving DecidableEq

/-- Why an expression has no value at a bar. -/
inductive EvalError where
  | unknownVariable (name : String)
  | divisionByZero
  | notFinite
deriving DecidableEq, Repr

/-- The wording of an evaluation error. -/
def EvalError.message : EvalError → String
  | .unknownVariable name => s!"unknown variable '{name}'"
  | .divisionByZero => "division by zero"
  | .notFinite => "result is not finite"

/-- The result of an operation on two values. -/
def Operation.apply (operation : Operation) (left right : Float) : Except EvalError Float :=
  match operation with
  | .add => .ok (left + right)
  | .sub => .ok (left - right)
  | .mul => .ok (left * right)
  | .div => if right == Float.ofNat 0 then .error .divisionByZero else .ok (left / right)

namespace Arithmetic

/-- A value that is not infinite. -/
def finite (value : Float) : Except EvalError Float :=
  if value.isInf then .error .notFinite else .ok value

/-- The value of an expression at a bar. -/
def evalAt (table : SymbolTable) (index : Nat) : Arithmetic → Except EvalError Float
  | .number value => finite value
  | .symbol name =>
      match (table.get? name).bind (·[index]?) with
      | some value => finite value
      | none => .error (.unknownVariable name)
  | .neg operand => do
      let value ← operand.evalAt table index
      finite (-value)
  | .binary operation left right => do
      let l ← left.evalAt table index
      let r ← right.evalAt table index
      let value ← operation.apply l r
      finite value

/-- The value at a bar, undefined where the expression fails. -/
def valueAt (table : SymbolTable) (e : Arithmetic) (index : Nat) : Float :=
  match e.evalAt table index with
  | .ok value => value
  | .error _ => Scalar.undefined

/-- The series of an expression. -/
def evaluate (table : SymbolTable) (e : Arithmetic) : Series :=
  (List.range table.barCount).map (e.valueAt table)

/-- Add a name to a list unless it is there. -/
def addName (names : List String) (name : String) : List String :=
  if names.contains name then names else names ++ [name]

/-- The names in `names`, then those that an expression reads and that are not among
them. -/
def symbolsFrom (names : List String) : Arithmetic → List String
  | .number _ => names
  | .symbol name => addName names name
  | .neg operand => operand.symbolsFrom names
  | .binary _ left right => right.symbolsFrom (left.symbolsFrom names)

/-- The names an expression reads, each once, in the order of first use. -/
def symbols (e : Arithmetic) : List String :=
  e.symbolsFrom []

/-- The text of an expression, with parentheses around every operation on two
operands. -/
def text : Arithmetic → String
  | .number value => plainText value
  | .symbol name => name
  | .neg operand => "-" ++ operand.text
  | .binary operation left right =>
      "(" ++ left.text ++ " " ++ String.singleton operation.character ++ " " ++ right.text ++ ")"

@[simp] theorem length_evaluate (table : SymbolTable) (e : Arithmetic) :
    (e.evaluate table).length = table.barCount := by
  simp [evaluate]

end Arithmetic

end ChartScript
