/-!
# Arithmetic operations

The five operations, in the order in which messages list them. Powers bind tightest, sums loosest.
Operations of one priority associate to the left, so an operation is applied before every later one
that does not bind tighter.
-/

namespace Reckoner

/-- A binary operation on numbers. -/
inductive Operation where
  | add
  | sub
  | div
  | mul
  | pow
deriving DecidableEq, Repr

namespace Operation

/-- All operations. -/
def all : List Operation := [add, sub, div, mul, pow]

/-- The sign that an operation is written with. -/
def symbol : Operation → String
  | add => "+"
  | sub => "-"
  | div => "/"
  | mul => "*"
  | pow => "^"

/-- How tightly an operation binds. -/
def priority : Operation → Nat
  | add | sub => 0
  | div | mul => 1
  | pow => 2

/-- The operation written with a sign. -/
def ofSymbol? (s : String) : Option Operation :=
  all.find? fun o => o.symbol = s

/-- An operation on the left is applied before one on its right. -/
def appliesBefore (left right : Operation) : Bool :=
  right.priority ≤ left.priority

/-- The value of an operation on doubles, with infinities and NaN as the standard of binary
floating-point arithmetic has them. -/
def apply : Operation → Float → Float → Float
  | add, x, y => x + y
  | sub, x, y => x - y
  | div, x, y => x / y
  | mul, x, y => x * y
  | pow, x, y => x.pow y

/-- Every operation is found by its sign. -/
@[simp]
theorem ofSymbol?_symbol (o : Operation) : ofSymbol? o.symbol = some o := by
  cases o <;> rfl

end Operation

end Reckoner
