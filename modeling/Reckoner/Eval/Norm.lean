import Reckoner.Number.Binary
import Reckoner.Number.Numeral

/-!
# The Euclidean norm

The norm of doubles is the root of the sum of their squares. The numbers are brought to sizes of at
most 1 first, so that no square overflows, and the sum keeps what its additions lose. The root is
then corrected once by what is left of the sum when its own square is taken away. Numbers so small
that they cannot be scaled are divided by the greatest of them instead.
-/

namespace Reckoner

/-- What an addition of `term` to `total` loses to rounding, for a term that is not greater. -/
def lostBy (total term : Float) : Float :=
  (total - (total + term)) + term

/-- A double as a high part, whose square is exact, and the rest. -/
def splitDigits (x : Float) : Float × Float :=
  let t := x * 134217729.0
  let high := t - (t - x)
  (high, x - high)

/-- A sum of squares of numbers below 1. What rounding loses is kept apart for each part of a
square. -/
structure SquareSum where
  /-- One more than the sum, so that no term is greater. -/
  total : Float := 1.0
  /-- Lost by the squares of the high parts. -/
  high : Float := 0.0
  /-- Lost by the products of the high parts and the rests. -/
  cross : Float := 0.0
  /-- The squares of the rests, or what they lost. -/
  low : Float := 0.0

namespace SquareSum

/-- The sum. -/
def value (s : SquareSum) : Float :=
  s.total - 1.0 + (s.high + s.cross + s.low)

/-- Adds the square of a number. -/
def add (s : SquareSum) (x : Float) : SquareSum :=
  let (high, low) := splitDigits x
  let square := high * high
  let product := 2.0 * high * low
  let total := s.total + square
  { total := total + product
    high := s.high + lostBy s.total square
    cross := s.cross + lostBy total product
    low := s.low + low * low }

/-- Takes the square of a number away. -/
def remove (s : SquareSum) (x : Float) : SquareSum :=
  let (high, low) := splitDigits x
  let square := -(high * high)
  let product := -(2.0 * high * low)
  let rest := -(low * low)
  let total := s.total + square
  { total := total + product + rest
    high := s.high + lostBy s.total square
    cross := s.cross + lostBy total product
    low := s.low + lostBy (total + product) rest }

end SquareSum

/-- The double `2 ^ e`. -/
def powerOfTwo (e : Int) : Float :=
  if 0 ≤ e then nearestDouble (Nat.pow 2 e.toNat) 0 else nearestDouble (Nat.pow 5 e.natAbs) e

/-- The least exponent `e` with `x < 2 ^ e`, for a finite double. -/
def binaryExponent (x : Float) : Int :=
  match Binary.ofFloat x with
  | .finite _ mantissa exponent => exponent + (mantissa.log2 + 1)
  | _ => 0

/-- The least exponent of a number that can be scaled to the sizes below 1. -/
def leastScalable : Int := -1023

/-- The norm of numbers of which the greatest is below `2 ^ e`. -/
def scaledNorm (e : Int) (sizes : List Float) : Float :=
  let scale := powerOfTwo (-e)
  let sum : SquareSum := sizes.foldl (fun s x => s.add (x * scale)) {}
  let root := sum.value.sqrt
  (root + (sum.remove root).value / (2.0 * root)) / scale

/-- The norm of numbers by their ratios to the greatest of them. -/
def ratioNorm (greatest : Float) (sizes : List Float) : Float :=
  let squares := sizes.map fun x => (x / greatest) * (x / greatest)
  let (total, lost) := squares.foldl
    (fun (total, lost) square => (total + square, lost + lostBy total square)) (1.0, 0.0)
  greatest * (total - 1.0 + lost).sqrt

/-- The Euclidean norm. An infinite argument makes it infinite, else NaN makes it NaN. -/
def norm (xs : List Float) : Float :=
  if xs.any Float.isInf then 1.0 / 0.0
  else if xs.any Float.isNaN then 0.0 / 0.0
  else
    let sizes := xs.map Float.abs
    let greatest := sizes.foldl (fun top x => if top < x then x else top) 0.0
    let e := binaryExponent greatest
    if greatest == 0.0 || sizes.length ≤ 1 then greatest
    else if leastScalable ≤ e then scaledNorm e sizes
    else ratioNorm greatest sizes

end Reckoner
