import Reckoner.Number.Binary

/-!
# Decimal digits of doubles

A `Decimal` is a whole number of units of some power of ten. `Decimal.rounded` is the nearest one to
a double with a given number of significant digits. `Decimal.shortest` has as few digits as still
single out the double: among the decimals of the coarsest grid that has one between the double's
neighbours, the nearest.
-/

namespace Reckoner

/-- The number `units · 10 ^ exponent`. -/
structure Decimal where
  units : Nat
  exponent : Int
deriving DecidableEq, Repr

namespace Decimal

/-- How many decimal digits a number has. -/
def digitCount (n : Nat) : Nat :=
  (Nat.toDigits 10 n).length

/-- A positive number as a fraction, in units of `10 ^ exponent`. -/
def scaled (num den : Nat) (exponent : Int) : Nat × Nat :=
  (num * Nat.pow 10 (-exponent).toNat, den * Nat.pow 10 exponent.toNat)

/-- The exponent `k` with `10 ^ (k - 1) ≤ num / den < 10 ^ k`. -/
def magnitude (num den : Nat) : Int :=
  let k := (digitCount num : Int) - digitCount den
  let (a, b) := scaled num den k
  if a < b then k else k + 1

/-- A fraction to the nearest whole number, a half going to the even neighbour. -/
def roundHalfEven (num den : Nat) : Nat :=
  let low := num / den
  match compare (2 * (num % den)) den with
  | .lt => low
  | .gt => low + 1
  | .eq => low + low % 2

/-- The nearest decimal to `mantissa · 2 ^ exponent` with `digits` significant digits. -/
def rounded (digits mantissa : Nat) (exponent : Int) : Decimal :=
  let num := mantissa * Nat.pow 2 exponent.toNat
  let den := Nat.pow 2 (-exponent).toNat
  let unit := magnitude num den - digits
  let (a, b) := scaled num den unit
  ⟨roundHalfEven a b, unit⟩

/-- The decimal with `digits` digits that singles out the double `mantissa · 2 ^ exponent`, if there
is one. Quarters of the last place of the mantissa are the common unit; the numbers that round to
the double reach half a place up, and half a place down unless the double below is nearer. -/
def separating? (digits mantissa : Nat) (exponent : Int) : Option Decimal :=
  let quarter := exponent - 2
  let factor := Nat.pow 2 quarter.toNat
  let den := Nat.pow 2 (-quarter).toNat
  let below := if mantissa = Binary.fractionPlace ∧ Binary.minExponent < exponent then 1 else 2
  let unit := magnitude (4 * mantissa * factor) den - digits
  let up := Nat.pow 10 unit.toNat * den
  let down := Nat.pow 10 (-unit).toNat * factor
  let exact := 4 * mantissa * down
  let lowest := (4 * mantissa - below) * down
  let highest := (4 * mantissa + 2) * down
  let inside (c : Nat) :=
    if mantissa % 2 = 0 then lowest ≤ c * up ∧ c * up ≤ highest
    else lowest < c * up ∧ c * up < highest
  let low := exact / up
  if inside low then
    if inside (low + 1) then some ⟨roundHalfEven exact up, unit⟩ else some ⟨low, unit⟩
  else if inside (low + 1) then some ⟨low + 1, unit⟩
  else none

/-- The digits that every double can be told from its neighbours by. -/
def maxDigits : Nat := 17

/-- The decimal with the fewest digits that singles out a double. -/
def shortest (mantissa : Nat) (exponent : Int) : Decimal :=
  ((List.range maxDigits).findSome? fun n => separating? (n + 1) mantissa exponent).getD
    (rounded maxDigits mantissa exponent)

end Decimal

end Reckoner
