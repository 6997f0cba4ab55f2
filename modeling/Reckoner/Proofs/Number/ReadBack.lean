import Reckoner.Proofs.Number.Written

/-!
# Written numbers read back

Every double that is a number is written as a number of the grammar whose value is the double again,
up to the sign of zero, and is written in the same way.
-/

namespace Reckoner

open Float.Model Float.Model.UnpackedFloat Reckoner.Grammar

variable {x : Float}

/-! ## Signs -/

/-- The sign of a double. -/
def signFor (negative : Bool) : Sign :=
  if negative then .negative else .positive

theorem unpacked_signValue (negative : Bool) : unpacked (signValue negative) =
    .finite (signFor negative) (2 ^ 52) (-52) (Nat.two_pow_pos 52) := by
  cases negative <;> rfl

/-- The minus of a written number. -/
def minusText (negative : Bool) : List Char :=
  if negative then ['-'] else []

theorem sign_minusText (negative : Bool) : Sign (minusText negative) negative := by
  cases negative
  · exact .absent
  · exact .minus 0

/-- A text for a decimal in the interval of a double is a number with the value of the double. -/
theorem number_of_stands {text : List Char} {v : ℚ} {m : Nat} {e : Int} (negative : Bool)
    (h : Stands text v) (hc : Canonical m e) (he : e ≤ maxExponent)
    (hv : RoundsTo (v / 2 ^ e) m e) :
    ∃ y, Number (minusText negative ++ text) y ∧
      unpacked y = .finite (signFor negative) m e hc.pos := by
  obtain ⟨mantissa, exponent, written, n, k, rfl, hm, hx, value, rfl⟩ := h
  refine ⟨_, .mk (sign_minusText negative) hm hx, ?_⟩
  have nearest := unpacked_nearestDouble hc he hv
  rw [← value] at nearest
  have bits : 2 ^ 52 ≤ 2 ^ 52 * m := Nat.le_mul_of_pos_right _ hc.pos
  have exact : ((2 ^ 52 : Nat) : ℚ) * 2 ^ (-52 : Int) * (m * 2 ^ e) / 2 ^ e = m := by
    have unit : ((2 ^ 52 : Nat) : ℚ) * 2 ^ (-52 : Int) = 1 := by norm_num
    rw [unit]
    field_simp
  have product := unpacked_mul (unpacked_signValue negative) nearest hc he bits
    (by rw [exact]; exact roundsTo_self m e)
  rw [product]
  congr 1
  cases negative <;> rfl

/-- A number of the grammar is a number. -/
theorem isNaN_of_number {text : List Char} (h : Number text x) : x.isNaN = false := by
  cases h with
  | @mk sign mantissa exponent written negative _ _ _ =>
    show (Float.Model.pack (UnpackedFloat.mul Format.binary64 (unpacked (signValue negative))
      (unpacked (numeralValue _)))).unpack.isNaN = false
    rw [unpacked_signValue]
    exact isNaN_unpack_pack (isNaN_finite_mul (isNaN_nearestDouble _ _))

/-! ## Finite doubles -/

/-- A whole number is written by its digits. -/
theorem stands_toDigits (n : Nat) : Stands (Nat.toDigits 10 n) n := by
  have whole := stands_whole ⟨Nat.toDigits_ne_nil, isDigit_toDigits (n := n)⟩ .absent
  rw [List.append_nil, digitsValue_toDigits] at whole
  have value : (n : ℚ) * 10 ^ exponentValue [] = n := by
    show (n : ℚ) * 10 ^ (0 : Int) = n
    rw [zpow_zero, mul_one]
  rwa [value] at whole

/-- The whole number that a double equals has its size. -/
theorem exists_size {negative : Bool} {m : Nat} {e w : Int} (hm : 0 < m)
    (h : (Binary.finite negative m e).whole? = some w) :
    ∃ size : Nat, 0 < size ∧ w = (if negative then -(size : Int) else size) ∧
      (size : ℚ) = m * 2 ^ e := by
  unfold Binary.whole? at h
  simp only [Option.map_eq_some_iff, Option.bind_eq_bind, Option.bind_eq_some_iff, Option.pure_def,
    Option.some.injEq] at h
  obtain ⟨_, ⟨size, found, rfl⟩, rfl⟩ := h
  have value : (size : ℚ) = m * 2 ^ e := by
    split at found
    · next whole =>
      cases found
      rw [Nat.pow_eq]
      push_cast
      rw [← zpow_natCast, Int.toNat_of_nonneg whole]
    · next part =>
      split at found
      · next divides =>
        cases found
        have pos : (0 : ℚ) < (2 ^ (-e).toNat : Nat) := by exact_mod_cast Nat.two_pow_pos _
        have power : (2 : ℚ) ^ e = 1 / (2 ^ (-e).toNat : Nat) := by
          push_cast
          rw [← zpow_natCast, Int.toNat_of_nonneg (by omega), zpow_neg, one_div, inv_inv]
        rw [power, mul_one_div]
        exact Nat.cast_div (Nat.dvd_of_mod_eq_zero divides) pos.ne'
      · cases found
  refine ⟨size, ?_, rfl, value⟩
  have : (0 : ℚ) < size := by
    rw [value]
    exact mul_pos (by exact_mod_cast hm) (by positivity)
  exact_mod_cast this

theorem toString_signed (negative : Bool) {size : Nat} (pos : 0 < size) :
    (toString (if negative then -(size : Int) else size)).toList =
      minusText negative ++ Nat.toDigits 10 size := by
  rw [Int.toString_eq_repr, Int.repr_eq_if]
  cases negative with
  | false =>
    rw [if_neg Bool.false_ne_true, if_pos (Int.natCast_nonneg size), Int.toNat_natCast,
      Nat.toList_repr]
    rfl
  | true =>
    rw [if_pos rfl, if_neg (by omega), neg_neg, Int.toNat_natCast, String.toList_append,
      Nat.toList_repr]
    rfl

/-- A finite double other than zero is written by its sign and a decimal in its interval. -/
theorem exists_text {s : Sign} {m : Nat} {e : Int} {hm : 0 < m}
    (h : unpacked x = .finite s m e hm) :
    ∃ text v, (numeralText x).toList = minusText (Binary.isMinus s) ++ text ∧ Stands text v ∧
      RoundsTo (v / 2 ^ e) m e := by
  have hc := (canonical_unpack h).1
  have finite : x.isInf = false := congrArg UnpackedFloat.isInf h
  have parts : Binary.ofFloat x = .finite (Binary.isMinus s) m e :=
    (Binary.ofFloat_eq x).trans (congrArg Binary.ofUnpacked h)
  unfold numeralText
  rw [if_neg (by rw [finite]; exact Bool.false_ne_true)]
  unfold valueText wholePart?
  rw [parts]
  split
  · next w found =>
    obtain ⟨size, pos, rfl, value⟩ := exists_size hm found
    refine ⟨_, size, toString_signed _ pos, stands_toDigits size, ?_⟩
    have exact : (size : ℚ) / 2 ^ e = m := by
      rw [value]
      field_simp
    rw [exact]
    exact roundsTo_self m e
  · have rounds := Decimal.roundsTo_shortest hc
    refine ⟨(Layout.full.write (Decimal.shortest m e)).toList, _, ?_, ?_, rounds⟩
    · unfold floatText Layout.writeFloat
      rw [parts]
      simp only [if_neg hm.ne', String.toList_append]
      congr 1
      cases Binary.isMinus s <;> rfl
    · exact Layout.stands_write (pos_of_roundsTo hc rounds)

/-! ## Zeros -/

/-- A double, a zero without its sign. -/
def unsignedZero (x : Float) : Float :=
  if x == 0.0 then 0.0 else x

theorem beq_zero_iff : (x == 0.0) = true ↔ ∃ s, unpacked x = .zero s := by
  have zero : unpacked 0.0 = .zero .positive := rfl
  show ((unpacked x).compare (unpacked 0.0) == some .eq) = true ↔ _
  rw [zero]
  cases unpacked x with
  | zero s => exact ⟨fun _ => ⟨s, rfl⟩, fun _ => rfl⟩
  | notANumber => exact ⟨nofun, nofun⟩
  | infinity s => cases s <;> exact ⟨nofun, nofun⟩
  | finite s m e hm => cases s <;> exact ⟨nofun, nofun⟩

theorem unsignedZero_of_zero {s : Sign} (h : unpacked x = .zero s) : unsignedZero x = 0.0 :=
  if_pos (beq_zero_iff.mpr ⟨s, h⟩)

theorem unsignedZero_of_not_zero (h : ∀ s, unpacked x ≠ .zero s) : unsignedZero x = x :=
  if_neg (mt beq_zero_iff.mp (not_exists.mpr h))

/-- Only the negative zero has a sign to lose. -/
theorem unsignedZero_of_ne (h : x ≠ -0.0) : unsignedZero x = x := by
  by_cases zero : ∃ s, unpacked x = .zero s
  · obtain ⟨s, zero⟩ := zero
    rw [unsignedZero_of_zero zero]
    cases s with
    | positive => exact (unpacked_injective zero).symm
    | negative => exact absurd (unpacked_injective zero) h
  · exact unsignedZero_of_not_zero (not_exists.mp zero)

theorem unsignedZero_beq (number : x.isNaN = false) : (unsignedZero x == x) = true := by
  by_cases zero : ∃ s, unpacked x = .zero s
  · obtain ⟨s, zero⟩ := zero
    rw [unsignedZero_of_zero zero]
    show ((unpacked 0.0).compare (unpacked x) == some .eq) = true
    rw [zero]
    rfl
  · rw [unsignedZero_of_not_zero (not_exists.mp zero)]
    rw [Float.isNaN_eq_decide_eq_nan, decide_eq_false_iff_not] at number
    exact Float.beq_self_iff.mpr number

/-- Two numbers differ at most in the sign of zero exactly when they are equal. -/
theorem unsignedZero_eq_iff {y : Float} (hx : x.isNaN = false) (hy : y.isNaN = false) :
    unsignedZero x = unsignedZero y ↔ (x == y) = true := by
  have zero : unsignedZero (-0.0) = 0.0 := by decide +kernel
  have signed : (-0.0 : Float) ≠ 0.0 := by decide +kernel
  rw [Float.isNaN_eq_decide_eq_nan, decide_eq_false_iff_not] at hx hy
  have equal : (x == y) = true ↔ x = y ∨ x = 0.0 ∧ y = -0.0 ∨ x = -0.0 ∧ y = 0.0 := by
    rw [Float.beq_iff_ne_nan_and_eq]
    exact ⟨fun h => h.2.2, fun h => ⟨hx, hy, h⟩⟩
  rw [equal]
  by_cases minus : x = -0.0
  · by_cases minus' : y = -0.0
    · simp [minus, minus']
    · simp [minus, zero, signed, unsignedZero_of_ne minus', Ne.symm minus', eq_comm]
  · by_cases minus' : y = -0.0
    · simp [minus', zero, signed, unsignedZero_of_ne minus, minus]
    · simp [unsignedZero_of_ne minus, unsignedZero_of_ne minus', minus, minus']

theorem numeralText_zero {s : Sign} (h : unpacked x = .zero s) : numeralText x = "0" := by
  have finite : x.isInf = false := congrArg UnpackedFloat.isInf h
  have parts : Binary.ofFloat x = .finite (Binary.isMinus s) 0 Binary.minExponent :=
    (Binary.ofFloat_eq x).trans (congrArg Binary.ofUnpacked h)
  have whole : wholePart? x = some 0 := by
    unfold wholePart?
    rw [parts]
    cases s <;> decide +kernel
  unfold numeralText valueText
  rw [if_neg (by rw [finite]; exact Bool.false_ne_true), whole]
  rfl

theorem numeralText_unsignedZero : numeralText (unsignedZero x) = numeralText x := by
  by_cases zero : ∃ s, unpacked x = .zero s
  · obtain ⟨s, zero⟩ := zero
    rw [unsignedZero_of_zero zero, numeralText_zero zero]
    exact numeralText_zero (s := .positive) rfl
  · rw [unsignedZero_of_not_zero (not_exists.mp zero)]

/-! ## All doubles -/

/-- Zero loses its sign. -/
theorem number_zero {s : Sign} (h : unpacked x = .zero s) :
    Number (numeralText x).toList 0.0 := by
  have digit : IsDigits ['0'] := isDigits_zero
  have zero : signValue false * numeralValue (['0'] ++ []) = 0.0 := unpacked_injective rfl
  rw [numeralText_zero h, ← zero]
  exact .mk .absent (.whole digit) .absent

theorem numeralText_infinity {s : Sign} (h : unpacked x = .infinity s) :
    (numeralText x).toList = minusText (Binary.isMinus s) ++ ['1', 'e', '9', '9', '9'] := by
  have infinite : x.isInf = true := congrArg UnpackedFloat.isInf h
  have less : x < 0 ↔ (UnpackedFloat.infinity s).lt (unpacked 0) = true := by
    rw [← h]
    show decide (_ = true) = true ↔ _
    rw [decide_eq_true_iff]
    rfl
  unfold numeralText
  rw [if_pos infinite]
  cases s with
  | negative =>
    rw [if_pos (less.mpr rfl)]
    rfl
  | positive =>
    rw [if_neg (mt less.mp (by decide +kernel))]
    rfl

/-- An infinity is written as a number too large for a double. -/
theorem number_infinity {s : Sign} (h : unpacked x = .infinity s) :
    Number (numeralText x).toList x := by
  have one : IsDigits ['1'] := ⟨List.cons_ne_nil _ _, List.all_eq_true.mp rfl⟩
  have nines : IsDigits ['9', '9', '9'] := ⟨List.cons_ne_nil _ _, List.all_eq_true.mp rfl⟩
  have large : Exponent ['e', '9', '9', '9'] ['e', '9', '9', '9'] :=
    .present (.inl rfl) .absent nines
  have derived := Number.mk (sign_minusText (Binary.isMinus s)) (.whole one) large
  have value : signValue (Binary.isMinus s) * numeralValue (['1'] ++ ['e', '9', '9', '9']) = x := by
    refine unpacked_injective (Eq.trans ?_ h.symm)
    cases s
    · exact unpacked_of_parts (by decide +kernel)
    · exact unpacked_of_parts (by decide +kernel)
  rw [value] at derived
  rw [numeralText_infinity h]
  exact derived

/-- A finite double other than zero is written as a number with its value. -/
theorem number_finite {s : Sign} {m : Nat} {e : Int} {hm : 0 < m}
    (h : unpacked x = .finite s m e hm) : Number (numeralText x).toList x := by
  obtain ⟨hc, he⟩ := canonical_unpack h
  obtain ⟨text, v, written, stands, rounds⟩ := exists_text h
  obtain ⟨y, derived, value⟩ := number_of_stands (Binary.isMinus s) stands hc he rounds
  have sign : signFor (Binary.isMinus s) = s := by cases s <;> rfl
  rw [sign, ← h] at value
  obtain rfl := unpacked_injective value
  rw [written]
  exact derived

/-- Every double that is a number is written as a number that reads back as the double, a zero
without its sign. -/
theorem number_numeralText (number : x.isNaN = false) :
    Number (numeralText x).toList (unsignedZero x) := by
  cases h : unpacked x with
  | notANumber =>
    have : (unpacked x).isNaN = false := number
    rw [h] at this
    cases this
  | zero s =>
    rw [unsignedZero_of_zero h]
    exact number_zero h
  | infinity s =>
    rw [unsignedZero_of_not_zero (by rw [h]; exact nofun)]
    exact number_infinity h
  | finite s m e hm =>
    rw [unsignedZero_of_not_zero (by rw [h]; exact nofun)]
    exact number_finite h

end Reckoner
