import Reckoner.Bindings
import Reckoner.Eval.Builtin
import Reckoner.Number.Layout

/-!
# Environments

What an expression can refer to: variables, functions and a lookup for external references, all
given by the host. A function of the host hides the built-in one of its name, even when the entry
holds no function.
-/

namespace Reckoner

/-- A number of the host, which may be a whole number of any size. -/
inductive Quantity where
  | real (value : Float)
  | whole (value : Int)

namespace Quantity

/-- The number as the host writes it. -/
def text : Quantity → String
  | real x => floatText x
  | whole n => toString n

/-- The number as a double; a whole number may be too large for one. -/
def toFloat : Quantity → Except HostFault Float
  | real x => .ok x
  | whole n =>
    let x := Float.ofInt n
    if x.isFinite then .ok x else .error .tooLarge

theorem toFloat_whole {n : Int} (h : (Float.ofInt n).isFinite = true) :
    toFloat (.whole n) = .ok (Float.ofInt n) :=
  if_pos h

end Quantity

/-- The values that the host gives to indices. -/
abbrev Lookup := Float → Except HostFault Quantity

/-- What an expression can refer to. -/
structure Environment where
  vars : Bindings Quantity := []
  /-- Functions of the host; an entry may hold none. -/
  functions : Bindings (Option Function) := []
  lookup? : Option Lookup := none

namespace Environment

/-- The environment of a session, with its variables alone. -/
def ofVariables (vars : Bindings Float) : Environment :=
  { vars := vars.mapValues .real }

/-- The function that a name stands for. -/
def resolve? (env : Environment) (name : String) : Option Function :=
  match env.functions.get? name with
  | some entry => entry
  | none => (Builtin.find? name).map Builtin.function

end Environment

end Reckoner
