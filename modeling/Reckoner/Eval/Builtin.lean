import Reckoner.Eval.Function
import Reckoner.Eval.Norm

/-!
# Built-in functions

Every built-in function gives a double, with infinities and NaN in place of errors: NaN outside of
its domain, an infinity where it overflows or has a pole. Only `rand` draws a random number.
-/

namespace Reckoner

/-- A built-in function under its name. -/
structure Builtin where
  name : String
  /-- The type of the function, for a reader. -/
  typeText : String
  function : Function

namespace Builtin

/-- Positive infinity. -/
def infinity : Float := 1.0 / 0.0

/-- NaN. -/
def notANumber : Float := 0.0 / 0.0

/-- A choice of one argument, the first of equals; NaN if any argument is, `empty` without
arguments. -/
def extreme (better : Float → Float → Bool) (empty : Float) : List Float → Float
  | [] => empty
  | x :: xs =>
    if (x :: xs).any Float.isNaN then notANumber
    else xs.foldl (fun best y => if better y best then y else best) x

/-- `-1` or `1` by the sign; zeros and NaN stay as they are. -/
def sign (x : Float) : Float :=
  if x.isNaN || x == 0.0 then x else if x < 0.0 then -1.0 else 1.0

/-- The mean, summed from left to right; NaN without arguments. -/
def average (xs : List Float) : Float :=
  if xs.isEmpty then notANumber else xs.foldl (· + ·) 0.0 / Float.ofNat xs.length

/-- A logarithm, with its pole at zero and NaN below. -/
def logarithm (f : Float → Float) (x : Float) : Float :=
  if x == 0.0 then -infinity else if x.isNaN || x < 0.0 then notANumber else f x

/-- A rounding to a whole number, which is never the negative zero. -/
def toWhole (f : Float → Float) (x : Float) : Float :=
  if x.isFinite then f x + 0.0 else x

/-- A function of one number. -/
def unary (name : String) (f : Float → Float) : Builtin :=
  ⟨name, "Num -> Num", .unary f⟩

/-- A function of any number of numbers. -/
def variadic (name : String) (f : List Float → Float) : Builtin :=
  ⟨name, "Num... -> Num", .variadic f⟩

/-- All built-in functions, in the order in which they are listed. -/
def all : List Builtin := [
  variadic "min" (extreme (fun x y => x < y) infinity),
  variadic "max" (extreme (fun x y => y < x) (-infinity)),
  unary "abs" Float.abs,
  unary "sign" sign,
  unary "exp" Float.exp,
  unary "log" (logarithm Float.log),
  unary "log10" (logarithm Float.log10),
  unary "log2" (logarithm Float.log2),
  unary "sqrt" Float.sqrt,
  unary "ceil" (toWhole Float.ceil),
  unary "floor" (toWhole Float.floor),
  ⟨"rand", "-> Num", .random⟩,
  variadic "hypot" norm,
  variadic "avg" average,
  unary "sin" Float.sin,
  unary "sinh" Float.sinh,
  unary "asin" Float.asin,
  unary "cos" Float.cos,
  unary "cosh" Float.cosh,
  unary "acos" Float.acos,
  unary "tan" Float.tan,
  unary "tanh" Float.tanh,
  unary "atan" Float.atan]

/-- The built-in function of a name. -/
def find? (name : String) : Option Builtin :=
  all.find? fun b => b.name = name

/-- The names of all built-in functions. -/
def names : List String :=
  all.map Builtin.name

/-- The overview of all built-in functions. -/
def overview : List String :=
  ["arithcomb Standard Library", String.ofList (List.replicate 30 '='),
    s!"Available functions: {all.length}"] ++ all.map fun b => s!"  {b.name}: {b.typeText}"

end Builtin

end Reckoner
