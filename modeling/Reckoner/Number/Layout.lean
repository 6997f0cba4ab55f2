import Reckoner.Number.Decimal

/-!
# Written numbers

A `Layout` decides how the digits of a number are written: in place or with an exponent, and what
follows a whole number. An exponent has a sign and at least two digits.
-/

namespace Reckoner

/-- How digits are written. -/
structure Layout where
  /-- The least exponent that is written in place. -/
  least : Int
  /-- The first exponent that is too large to be written in place. -/
  tooLarge : Int
  /-- What follows a whole number that is written in place. -/
  wholeMark : String

namespace Layout

/-- Numbers in full have their fraction, if only `.0`, and take an exponent below 10⁻⁴ and from 10¹⁶
on. -/
def full : Layout := ⟨-4, 16, ".0"⟩

/-- Numbers cut to a number of digits show no empty fraction, and take an exponent when their digits
would not reach the units. -/
def cut (digits : Nat) : Layout := ⟨-4, digits, ""⟩

/-- The digits of a number without zeros at the end; zero keeps one. -/
def significant (n : Nat) : List Char :=
  if n = 0 then ['0'] else ((Nat.toDigits 10 n).reverse.dropWhile (· = '0')).reverse

/-- An exponent. -/
def exponentText (exponent : Int) : String :=
  let size := Nat.toDigits 10 exponent.natAbs
  let mark := if exponent < 0 then '-' else '+'
  String.ofList ('e' :: mark :: List.replicate (2 - size.length) '0' ++ size)

/-- Writes a decimal. -/
def write (layout : Layout) (d : Decimal) : String :=
  let digits := significant d.units
  let point : Int := if d.units = 0 then 1 else Decimal.digitCount d.units + d.exponent
  let exponent := point - 1
  if exponent < layout.least ∨ layout.tooLarge ≤ exponent then
    let tail := digits.drop 1
    let fraction := if tail.isEmpty then [] else '.' :: tail
    String.ofList (digits.take 1 ++ fraction) ++ exponentText exponent
  else if point ≤ 0 then
    String.ofList ('0' :: '.' :: List.replicate (-point).toNat '0' ++ digits)
  else if digits.length ≤ point.toNat then
    String.ofList (digits ++ List.replicate (point.toNat - digits.length) '0') ++ layout.wholeMark
  else
    String.ofList (digits.take point.toNat ++ '.' :: digits.drop point.toNat)

/-- Writes a double by a layout and a choice of digits. -/
def writeFloat (layout : Layout) (choose : Nat → Int → Decimal) (x : Float) : String :=
  match Binary.ofFloat x with
  | .nan => "nan"
  | .infinite negative => if negative then "-inf" else "inf"
  | .finite negative mantissa exponent =>
    let size := if mantissa = 0 then ⟨0, 0⟩ else choose mantissa exponent
    (if negative then "-" else "") ++ layout.write size

end Layout

/-- A double by its fewest digits, always with a point or an exponent. -/
def floatText (x : Float) : String :=
  Layout.full.writeFloat Decimal.shortest x

/-- A double cut to a number of significant digits, at least one. -/
def cutText (digits : Nat) (x : Float) : String :=
  let digits := max digits 1
  (Layout.cut digits).writeFloat (fun m e => Decimal.rounded digits m e) x

/-- The digits that an index is shown with. -/
def indexDigits : Nat := 6

/-- A double as the user reads it: a whole number shows no fraction. -/
def valueText (x : Float) : String :=
  match wholePart? x with
  | some n => toString n
  | none => floatText x

/-- A double as it is written in an expression. An infinity is written as a number too large for a
double. -/
def numeralText (x : Float) : String :=
  if x.isInf then if x < 0 then "-1e999" else "1e999" else valueText x

end Reckoner
