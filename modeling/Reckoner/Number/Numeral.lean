/-!
# Numbers read from their digits

A numeral is a run of digits, a point and more digits, or either alone, and may end in an exponent.
It stands for the double nearest to it.
-/

namespace Reckoner

/-- The number that digits stand for. -/
def digitsValue (digits : List Char) : Nat :=
  digits.foldl (fun n c => 10 * n + (c.toNat - '0'.toNat)) 0

/-- The double nearest to `m · 10 ^ e`. -/
def nearestDouble (m : Nat) (e : Int) : Float :=
  Float.ofScientific m (decide (e < 0)) e.natAbs

/-- The exponent at the end of a numeral, 0 when there is none. -/
def exponentValue : List Char → Int
  | 'e' :: '-' :: digits => -(digitsValue digits : Int)
  | 'e' :: '+' :: digits => digitsValue digits
  | 'e' :: digits => digitsValue digits
  | _ => 0

/-- The double that a numeral stands for. -/
def numeralValue (text : List Char) : Float :=
  let whole := text.takeWhile Char.isDigit
  let rest := text.dropWhile Char.isDigit
  let (fraction, rest) := match rest with
    | '.' :: r => (r.takeWhile Char.isDigit, r.dropWhile Char.isDigit)
    | r => ([], r)
  nearestDouble (digitsValue (whole ++ fraction)) (exponentValue rest - fraction.length)

end Reckoner
