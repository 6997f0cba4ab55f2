import Reckoner.Number.Layout
import Reckoner.Text.Quoted

/-!
# Scalars

Values that a host may hand over in place of an expression: nothing, truth values, whole numbers,
doubles and texts. Of a value of another kind, only the name of the kind and the literal are known.
-/

namespace Reckoner

/-- A plain value. -/
inductive Scalar where
  | null
  | bool (value : Bool)
  | int (value : Int)
  | real (value : Float)
  | text (value : String)
  | other (kind literal : String)
deriving DecidableEq, Repr

namespace Scalar

/-- A plain value as a literal. -/
def literal : Scalar → String
  | null => "None"
  | bool true => "True"
  | bool false => "False"
  | int n => toString n
  | real x => floatText x
  | text s => quoted s
  | other _ shown => shown

/-- The name of the kind of value. -/
def kind : Scalar → String
  | null => "NoneType"
  | bool _ => "bool"
  | int _ => "int"
  | real _ => "float"
  | text _ => "str"
  | other name _ => name

/-- The whole number that a plain value counts as; truth counts as 1. -/
def number? : Scalar → Option Int
  | bool b => some (if b then 1 else 0)
  | int n => some n
  | real x => wholePart? x
  | _ => none

/-- Plain values are the same when they are equal or count as the same number. -/
def same : Scalar → Scalar → Bool
  | real x, real y => x == y
  | a, b =>
    match a.number?, b.number? with
    | some m, some n => m = n
    | _, _ => a = b

end Scalar

end Reckoner
