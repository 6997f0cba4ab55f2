import Reckoner.Expr.Literal
import Reckoner.Parser.Text

/-!
# Values that a parser can carry

A parser that is put together at run time carries values of any kind: plain values, lists and
tuples, positions, expressions and errors. `literal` writes a value so that its kind can be
seen, `display` writes it for a reader.
-/

namespace Reckoner

/-- A value of any kind. -/
inductive Datum where
  | scalar (value : Scalar)
  | list (items : List Datum)
  | tuple (items : List Datum)
  | position (value : Position)
  | expr (value : Expr)
  | error (value : TextError)

instance : Inhabited Datum := ⟨.scalar .null⟩

/-- A position as a literal. -/
def Position.literal (p : Position) : String :=
  s!"Offset(index={p.index}, row={p.row}, column={p.column})"

/-- An error as a literal. -/
def TextError.literal (e : TextError) : String :=
  let place := match e.position? with
    | some p => p.literal
    | none => Scalar.null.literal
  s!"TextParseError(expected={quoted e.expected}, actual={quoted e.actual}, offset={place})"

namespace Datum

mutual
/-- A value as a literal. -/
def literal : Datum → String
  | scalar v => v.literal
  | list items => "[" ++ String.intercalate ", " (literals items) ++ "]"
  | tuple items => tupleText (literals items)
  | position p => p.literal
  | expr e => e.literal
  | error e => e.literal

/-- The literals of the listed values. -/
def literals : List Datum → List String
  | [] => []
  | d :: ds => d.literal :: literals ds
end

/-- A value for a reader: a text stands for itself, positions and errors are put in words. -/
def display : Datum → String
  | scalar (.text s) => s
  | position p => p.describe
  | error e => e.describe
  | d => d.literal

mutual
/-- Values are the same when they are of one kind and equal; numbers are compared by value, and
errors by what they expected and found. -/
def same : Datum → Datum → Bool
  | scalar v, scalar w => v.same w
  | list ds, list es | tuple ds, tuple es => sameAll ds es
  | position p, position q => p = q
  | expr e, expr f => e.same f
  | error e, error f => e.expected = f.expected && e.actual = f.actual
  | _, _ => false

/-- Values of two lists are the same one by one. -/
def sameAll : List Datum → List Datum → Bool
  | [], [] => true
  | d :: ds, e :: es => d.same e && sameAll ds es
  | _, _ => false
end

/-- Only errors of texts have a place; a missing error says nothing. -/
instance : Reaching Datum where
  reach
    | error e => Reaching.reach e
    | _ => -1
  isNothing
    | scalar .null => true
    | _ => false

end Datum

end Reckoner
