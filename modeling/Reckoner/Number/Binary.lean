/-!
# Doubles taken apart

A finite double is a sign, a mantissa below 2⁵³ and a power of two. Everything that is written about
a double is computed from these in exact arithmetic.
-/

namespace Reckoner

/-- The parts of a double. -/
inductive Binary where
  | nan
  | infinite (negative : Bool)
  /-- The number `±mantissa · 2 ^ exponent`. -/
  | finite (negative : Bool) (mantissa : Nat) (exponent : Int)
deriving DecidableEq, Repr

namespace Binary

/-- The exponent of the smallest positive double. -/
def minExponent : Int := -1074

/-- The first number that does not fit in the fraction, which is also the implicit leading bit. -/
def fractionPlace : Nat := 0x10000000000000

/-- The first number that does not fit in the exponent. -/
def exponentPlace : Nat := 0x800

/-- The place of the sign bit. -/
def signPlace : Nat := 0x8000000000000000

/-- Takes a double apart by its bit pattern. -/
def ofFloat (x : Float) : Binary :=
  let bits := x.toBits.toNat
  let negative := decide (signPlace ≤ bits)
  let biased : Nat := bits / fractionPlace % exponentPlace
  let fraction : Nat := bits % fractionPlace
  if biased = exponentPlace - 1 then if fraction = 0 then .infinite negative else .nan
  else if biased = 0 then .finite negative fraction minExponent
  else .finite negative (fractionPlace + fraction) (minExponent + biased - 1)

/-- The whole number that a double equals, if there is one. -/
def whole? : Binary → Option Int
  | .finite negative mantissa exponent =>
    let size? :=
      if 0 ≤ exponent then some (mantissa * Nat.pow 2 exponent.toNat)
      else
        let unit := Nat.pow 2 (-exponent).toNat
        if mantissa % unit = 0 then some (mantissa / unit) else none
    size?.map fun size => if negative then -(size : Int) else size
  | _ => none

end Binary

/-- The whole number that a double equals, if there is one. -/
def wholePart? (x : Float) : Option Int :=
  (Binary.ofFloat x).whole?

end Reckoner
