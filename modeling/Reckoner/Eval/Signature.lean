/-!
# Signatures of functions

A signature says which arguments a function needs and which ones it takes, by their places and by
their names. A call gives its arguments by place only, so one that needs an argument by name does
not fit, however many arguments it has. Calls are checked against the signature beforehand. A
function may have no signature that can be looked at; its calls are not checked.
-/

namespace Reckoner

/-- Which arguments a function takes. -/
structure Signature where
  /-- Arguments that must be given. -/
  required : Nat := 0
  /-- Further arguments that may be given. -/
  defaulted : Nat := 0
  /-- Any number of arguments may follow. -/
  variadic : Bool := false
  /-- Arguments that must be given by name. -/
  requiredNamed : Nat := 0
  /-- Further arguments that may be given by name. -/
  defaultedNamed : Nat := 0
  /-- Any other argument may be given by name. -/
  variadicNamed : Bool := false
deriving DecidableEq, Repr

/-- A number of arguments in words. -/
def argumentCount (count : Nat) : String :=
  s!"{count} argument" ++ if count = 1 then "" else "s"

namespace Signature

/-- A function of exactly `count` arguments. -/
def exactly (count : Nat) : Signature := { required := count }

/-- A function of any number of arguments. -/
def any : Signature := { variadic := true }

/-- A call with `count` arguments fits the signature. -/
def accepts (s : Signature) (count : Nat) : Bool :=
  s.requiredNamed = 0 && s.required ≤ count && (s.variadic || count ≤ s.required + s.defaulted)

/-- The parameters without a default value. The one for all other names counts as such. -/
def withoutDefault (s : Signature) : Nat :=
  s.required + s.requiredNamed + if s.variadicNamed then 1 else 0

/-- The parameters with a default value. -/
def withDefault (s : Signature) : Nat :=
  s.defaulted + s.defaultedNamed

/-- The arguments that a function takes, in words. Parameters are counted whether an argument is
given by place or by name. -/
def describe (s : Signature) : String :=
  if s.variadic then "any number of arguments"
  else if s.withDefault = 0 then argumentCount s.withoutDefault
  else s!"{s.withoutDefault} to {s.withoutDefault + s.withDefault} arguments"

end Signature

/-- The arguments of a function that may have no signature, in words. -/
def signatureText : Option Signature → String
  | none => "a different number of arguments"
  | some s => s.describe

end Reckoner
