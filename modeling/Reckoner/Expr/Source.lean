import Reckoner.Expr.Basic
import Reckoner.Number.Layout
import Reckoner.Text.Lines

/-!
# Expressions as text

`Expr.source` writes an expression with all its parentheses, so that it reads back as the same
expression. `Expr.outline` lists its nodes, one per line, each below its parent and one step further
in. Plain values have no written form.
-/

namespace Reckoner.Expr

mutual
/-- The text of an expression with every operation in parentheses; plain values leave no trace. -/
def source : Expr → String
  | number x => numeralText x
  | var name => "#" ++ name
  | external index => "v[" ++ index.source ++ "]"
  | call name args => name ++ "(" ++ String.intercalate ", " (sources args) ++ ")"
  | binary symbol a b _ => "(" ++ a.source ++ " " ++ symbol ++ " " ++ b.source ++ ")"
  | foreign _ => ""

/-- The texts of the listed expressions. -/
def sources : List Expr → List String
  | [] => []
  | a :: as => a.source :: sources as
end

/-- The text of an expression without plain values. -/
def source? (e : Expr) : Option String :=
  if e.isNative then some e.source else none

/-- A line of an outline, `indent` steps in; a negative number of steps is none. -/
def outlineLine (indent : Int) (text : String) : String :=
  String.ofList (List.replicate (2 * indent.toNat) ' ') ++ text

mutual
/-- The lines of an expression that starts `indent` steps in. -/
def outline (indent : Int) : Expr → List String
  | number x => [outlineLine indent s!"Number({numeralText x})"]
  | var name => [outlineLine indent s!"Variable({name})"]
  | external index => outlineLine indent "ExternalRef" :: index.outline (indent + 1)
  | call name args => outlineLine indent s!"Call({name})" :: outlines (indent + 1) args
  | binary symbol a b _ =>
    outlineLine indent s!"Operator({symbol})" ::
      (a.outline (indent + 1) ++ b.outline (indent + 1))
  | foreign _ => []

/-- The lines of the listed expressions. -/
def outlines (indent : Int) : List Expr → List String
  | [] => []
  | a :: as => a.outline indent ++ outlines indent as
end

/-- The outline of an expression as a text. -/
def pretty (e : Expr) (indent : Int) : String :=
  unlines (e.outline indent)

end Reckoner.Expr
