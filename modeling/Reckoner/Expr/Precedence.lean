import Reckoner.Expr.Basic

/-!
# Operator precedence

The grammar reads a chain of operands from the right: the right-hand side of an operator is a tree
before the operator is attached to its left operand. Attaching descends the left branch of that tree
as long as the operator is applied before the operations met there, and never enters parentheses. So
`1 * 2 + 3`, read as `1 *` and `2 + 3`, becomes `(1 * 2) + 3`.
-/

namespace Reckoner

/-- Whether the sign on the left is applied before the one on the right; none if a sign stands for
no operation. -/
def appliesBefore? (left right : String) : Option Bool := do
  let first ← Operation.ofSymbol? left
  let second ← Operation.ofSymbol? right
  return first.appliesBefore second

namespace Expr

/-- Attaches a left operand and a sign to a right-hand side; none if a sign that has to be compared
stands for no operation. -/
def attach? (symbol : String) (left : Expr) : Expr → Option Expr
  | binary inner a b false => do
    if ← appliesBefore? symbol inner then
      return binary inner (← attach? symbol left a) b false
    else
      return binary symbol left (binary inner a b false) false
  | right => some (binary symbol left right false)

/-- Attaches a left operand and an operation to a right-hand side. A right-hand side with signs that
stand for no operation is taken as it is. -/
def attach (left : Expr) (o : Operation) (right : Expr) : Expr :=
  (attach? o.symbol left right).getD (binary o.symbol left right false)

end Expr

end Reckoner
