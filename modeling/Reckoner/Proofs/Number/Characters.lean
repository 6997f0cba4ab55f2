import Reckoner.Eval.Environment
import Reckoner.Proofs.Number.Digits

/-!
# Characters of written numbers

Whatever its layout, a number is written with digits, signs, a point and the letters of an exponent
or of a number that is not finite. So a written number does not break a line.
-/

namespace Reckoner

/-- The characters that numbers are written with. -/
def isNumberChar (c : Char) : Bool :=
  c.isDigit || ['+', '-', '.', 'e', 'i', 'n', 'f', 'a'].contains c

/-- All characters are among those of numbers. -/
def Numeric (s : List Char) : Prop :=
  ∀ c ∈ s, isNumberChar c = true

variable {s t : List Char} {layout : Layout}

theorem numeric_of_digits (h : ∀ c ∈ s, c.isDigit = true) : Numeric s := by
  intro c mem
  rw [isNumberChar, h c mem, Bool.true_or]

theorem numeric_of_all {text : String} (h : text.toList.all isNumberChar = true) :
    Numeric text.toList :=
  List.all_eq_true.mp h

theorem Numeric.append (hs : Numeric s) (ht : Numeric t) : Numeric (s ++ t) :=
  List.forall_mem_append.mpr ⟨hs, ht⟩

theorem Numeric.cons {c : Char} (hc : isNumberChar c = true) (hs : Numeric s) : Numeric (c :: s) :=
  List.forall_mem_cons.mpr ⟨hc, hs⟩

theorem Numeric.take (hs : Numeric s) (n : Nat) : Numeric (s.take n) :=
  fun c mem => hs c (List.mem_of_mem_take mem)

theorem Numeric.drop (hs : Numeric s) (n : Nat) : Numeric (s.drop n) :=
  fun c mem => hs c (List.mem_of_mem_drop mem)

/-- A written number stays on its line. -/
theorem Numeric.noBreak (hs : Numeric s) : '\n' ∉ s := by
  intro mem
  have broken := hs '\n' mem
  revert broken
  decide

theorem numeric_zeros (k : Nat) : Numeric (List.replicate k '0') :=
  numeric_of_digits (isDigit_zeros k)

theorem numeric_toDigits (n : Nat) : Numeric (Nat.toDigits 10 n) :=
  numeric_of_digits isDigit_toDigits

namespace Layout

theorem numeric_significant (n : Nat) : Numeric (significant n) := by
  rcases Nat.eq_zero_or_pos n with rfl | pos
  · exact numeric_zeros 1
  · exact numeric_of_digits (isDigit_significant pos)

theorem numeric_exponentText (x : Int) : Numeric (exponentText x).toList := by
  unfold exponentText
  rw [String.toList_ofList]
  have size : Numeric (List.replicate (2 - (Nat.toDigits 10 x.natAbs).length) '0' ++
      Nat.toDigits 10 x.natAbs) := (numeric_zeros _).append (numeric_toDigits _)
  refine .cons rfl (.cons ?_ size)
  split
  · rfl
  · rfl

theorem numeric_write (mark : Numeric layout.wholeMark.toList) (d : Decimal) :
    Numeric (layout.write d).toList := by
  have digits := numeric_significant d.units
  unfold write
  dsimp only
  generalize (if d.units = 0 then (1 : Int) else Decimal.digitCount d.units + d.exponent) = point
  split
  · rw [String.toList_append, String.toList_ofList]
    refine ((digits.take 1).append ?_).append (numeric_exponentText _)
    split
    · exact nofun
    · exact .cons rfl (digits.drop 1)
  · split
    · rw [String.toList_ofList]
      exact .cons rfl (.cons rfl ((numeric_zeros _).append digits))
    · split
      · rw [String.toList_append, String.toList_ofList]
        exact (digits.append (numeric_zeros _)).append mark
      · rw [String.toList_ofList]
        exact (digits.take _).append (.cons rfl (digits.drop _))

theorem numeric_writeFloat (mark : Numeric layout.wholeMark.toList) (choose : Nat → Int → Decimal)
    (x : Float) : Numeric (layout.writeFloat choose x).toList := by
  unfold writeFloat
  split
  · exact numeric_of_all (by decide +kernel)
  · split
    · exact numeric_of_all (by decide +kernel)
    · exact numeric_of_all (by decide +kernel)
  · dsimp only
    rw [String.toList_append]
    refine Numeric.append ?_ (numeric_write mark _)
    split
    · exact numeric_of_all (by decide +kernel)
    · exact numeric_of_all (by decide +kernel)

end Layout

theorem numeric_floatText (x : Float) : Numeric (floatText x).toList :=
  Layout.numeric_writeFloat (numeric_of_all (by decide +kernel)) _ x

theorem numeric_cutText (digits : Nat) (x : Float) : Numeric (cutText digits x).toList := by
  have mark : Numeric (Layout.cut (max digits 1)).wholeMark.toList := numeric_of_all rfl
  exact Layout.numeric_writeFloat mark _ x

theorem numeric_toString (n : Int) : Numeric (toString n).toList := by
  rw [Int.toString_eq_repr, Int.repr_eq_if]
  split
  · rw [Nat.toList_repr]
    exact numeric_toDigits _
  · rw [String.toList_append, Nat.toList_repr]
    exact Numeric.append (numeric_of_all (by decide +kernel)) (numeric_toDigits _)

theorem Quantity.numeric_text (value : Quantity) : Numeric value.text.toList := by
  cases value with
  | real x => exact numeric_floatText x
  | whole n => exact numeric_toString n

end Reckoner
