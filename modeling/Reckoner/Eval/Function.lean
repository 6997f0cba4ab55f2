import Reckoner.Eval.Error

/-!
# Functions that expressions can call

A function takes doubles, and may draw random numbers when it is called. Called directly, without a
check of its arguments, it refuses a number of them that it is not made for.
-/

namespace Reckoner

/-- A function of a host or a built-in one. -/
structure Function where
  /-- The signature, if it can be looked at. -/
  signature? : Option Signature
  /-- How many random numbers a call draws. -/
  draws : Nat := 0
  /-- The value for given arguments, from the numbers that are drawn. -/
  apply : (Fin draws → Float) → List Float → Except HostFault Float

namespace Function

/-- A function of no arguments. -/
def constant (value : Float) : Function where
  signature? := some (.exactly 0)
  apply
    | _, [] => .ok value
    | _, _ => .error .wrongCount

/-- A function of no arguments whose value is drawn. -/
def random : Function where
  signature? := some (.exactly 0)
  draws := 1
  apply
    | drawn, [] => .ok (drawn 0)
    | _, _ => .error .wrongCount

/-- A function of one argument. -/
def unary (f : Float → Float) : Function where
  signature? := some (.exactly 1)
  apply
    | _, [x] => .ok (f x)
    | _, _ => .error .wrongCount

/-- A function of two arguments. -/
def binary (f : Float → Float → Float) : Function where
  signature? := some (.exactly 2)
  apply
    | _, [x, y] => .ok (f x y)
    | _, _ => .error .wrongCount

/-- A function of any number of arguments. -/
def variadic (f : List Float → Float) : Function where
  signature? := some .any
  apply := fun _ xs => .ok (f xs)

/-- Checks a number of arguments against the signature. -/
def check (f : Function) (name : String) (count : Nat) : Except EvalError Unit :=
  match f.signature? with
  | some s => if s.accepts count then .ok () else .error (.arity name s count)
  | none => .ok ()

end Function

end Reckoner
