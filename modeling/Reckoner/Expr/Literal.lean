import Reckoner.Expr.Basic
import Reckoner.Number.Layout

/-!
# Expressions as literals

The literal of an expression names each node and its parts, as far as they go.
-/

namespace Reckoner

/-- Literals in a tuple; one alone is followed by a comma. -/
def tupleText : List String → String
  | [item] => "(" ++ item ++ ",)"
  | items => "(" ++ String.intercalate ", " items ++ ")"

namespace Expr

mutual
/-- An expression as a literal. -/
def literal : Expr → String
  | number x => s!"Number(value={floatText x})"
  | var name => s!"Variable(name={quoted name})"
  | external index => s!"ExternalRef(index={index.literal})"
  | call name args => s!"Call(name={quoted name}, args={tupleText (literals args)})"
  | binary symbol a b grouped =>
    s!"Operator(op={quoted symbol}, left={a.literal}, right={b.literal}, " ++
      s!"grouped={(Scalar.bool grouped).literal})"
  | foreign v => v.literal

/-- The literals of the listed expressions. -/
def literals : List Expr → List String
  | [] => []
  | a :: as => a.literal :: literals as
end

end Expr

end Reckoner
