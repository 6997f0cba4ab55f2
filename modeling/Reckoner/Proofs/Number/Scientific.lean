import Reckoner.Number.Numeral
import Reckoner.Proofs.Number.Arithmetic

/-!
# The double nearest to a decimal

`nearestDouble n k` is the double in whose interval `n · 10 ^ k` lies. Small numbers are multiplied
or divided by a power of ten that is itself a double; all others are computed exactly first.
-/

namespace Reckoner

open Float.Model Float.Model.UnpackedFloat

/-! ## Whole numbers and powers of ten as doubles -/

/-- How many places a whole number is shifted to fill the mantissa of a double. -/
def padding (n : Nat) : Nat :=
  52 - n.log2

theorem log2_le_of_lt {n : Nat} (pos : 0 < n) (small : n < 2 ^ 53) : n.log2 ≤ 52 :=
  Nat.le_of_lt_succ ((Nat.log2_lt pos.ne').mpr small)

theorem canonical_padded {n : Nat} (pos : 0 < n) (small : n < 2 ^ 53) :
    Canonical (n <<< padding n) (-(padding n : Int)) := by
  have := log2_le_of_lt pos small
  have low : 2 ^ 52 ≤ n <<< padding n := by
    rw [Nat.shiftLeft_eq]
    calc
      2 ^ 52 = 2 ^ n.log2 * 2 ^ padding n := by rw [← pow_add, padding]; congr 1; omega
      _ ≤ n * 2 ^ padding n := Nat.mul_le_mul_right _ (Nat.log2_self_le pos.ne')
  have high : n <<< padding n < 2 ^ 53 := by
    rw [Nat.shiftLeft_eq]
    calc
      n * 2 ^ padding n < 2 ^ (n.log2 + 1) * 2 ^ padding n :=
        Nat.mul_lt_mul_of_pos_right Nat.lt_log2_self (Nat.two_pow_pos _)
      _ = 2 ^ 53 := by rw [← pow_add, padding]; congr 1; omega
  exact ⟨by omega, high, by unfold padding; omega, .inl low⟩

theorem padded_value (n : Nat) : ((n <<< padding n : Nat) : ℚ) * 2 ^ (-(padding n : Int)) = n := by
  rw [Nat.shiftLeft_eq, zpow_neg, zpow_natCast]
  push_cast
  field_simp

theorem round_padded {n : Nat} (pos : 0 < n) (small : n < 2 ^ 53) :
    UnpackedFloat.round Format.binary64 .positive n 0 = .finite .positive (n <<< padding n)
      (-(padding n : Int)) (canonical_padded pos small).pos := by
  have hc := canonical_padded pos small
  have target : exponentFor n 0 = -(padding n : Int) := by
    have := log2_le_of_lt pos small
    rw [exponentFor_eq, padding]
    omega
  have amount : ((0 : Int) - exponentFor n 0).toNat = padding n := by omega
  have value : (n : ℚ) / 2 ^ (-(padding n : Int)) = (n <<< padding n : Nat) := by
    rw [div_eq_iff (by positivity), padded_value]
  have exact := roundWithAccuracy_eq hc (M := n <<< padding n) (E := -(padding n : Int)) (v := n)
    (by rw [value]; exact holds_exact _) hc.exponentFor_eq.ge
    (by rw [value]; exact roundsTo_self _ _) .positive
  show roundWithAccuracy Format.binary64 .positive (n <<< ((0 : Int) - exponentFor n 0).toNat)
    (0 - ((0 : Int) - exponentFor n 0).toNat) .exact = _
  rw [amount, zero_sub]
  exact exact

/-- A whole number of at most 53 bits is a double. -/
theorem unpacked_toFloat {n : Nat} (pos : 0 < n) (small : n < 2 ^ 53) :
    unpacked n.toUInt64.toFloat = .finite .positive (n <<< padding n) (-(padding n : Int))
      (canonical_padded pos small).pos := by
  have word : n.toUInt64.toNat = n := by
    show n % 2 ^ 64 = n
    omega
  have model : unpacked n.toUInt64.toFloat =
      (Float.Model.pack
        (UnpackedFloat.normalize Format.binary64 n.toUInt64.toNat 0 .positive)).unpack := rfl
  have positive : compare (n : Int) 0 = .gt := by
    rw [Int.compare_eq_gt]
    exact_mod_cast pos
  have normal : UnpackedFloat.normalize Format.binary64 (n : Int) 0 .positive =
      UnpackedFloat.round Format.binary64 .positive n 0 := by
    unfold UnpackedFloat.normalize
    rw [positive]
    rfl
  rw [model, word, normal, round_padded pos small,
    unpack_pack_finite (canonical_padded pos small)]
  unfold maxExponent padding
  omega

/-- The double that the table has for a power of ten. -/
def powerOfTen (i : Fin 23) : Float :=
  getElem Float.exactlyRepresentablePowersOfTen (i : Nat) (by
    have := i.isLt
    simp [Float.exactlyRepresentablePowersOfTen])

/-- The odd part of a power of ten fits in the mantissa of a double, so the table is exact. -/
theorem parts_powerOfTen : ∀ i : Fin 23, Binary.ofFloat (powerOfTen i) =
    .finite false (5 ^ (i : Nat) <<< padding (5 ^ (i : Nat)))
      ((i : Nat) - padding (5 ^ (i : Nat))) := by
  decide +kernel

theorem unpacked_powerOfTen (i : Fin 23) :
    ∃ (m : Nat) (e : Int) (hm : 0 < m), unpacked (powerOfTen i) = .finite .positive m e hm ∧
      2 ^ 52 ≤ m ∧ (m : ℚ) * 2 ^ e = 10 ^ (i : Nat) := by
  have pos : 0 < 5 ^ (i : Nat) := Nat.pow_pos (by norm_num)
  have small : 5 ^ (i : Nat) < 2 ^ 53 :=
    (Nat.pow_le_pow_right (by norm_num) (Nat.le_of_lt_succ i.isLt)).trans_lt
      (by norm_num : 5 ^ 22 < 2 ^ 53)
  have hc := canonical_padded pos small
  refine ⟨_, _, hc.pos, unpacked_of_parts (parts_powerOfTen i), ?_, ?_⟩
  · rcases hc.full with full | least
    · exact full
    · unfold padding at least
      omega
  · rw [sub_eq_add_neg, add_comm, zpow_add₀ two_ne_zero, ← mul_assoc, padded_value, zpow_natCast]
    push_cast
    rw [← mul_pow]
    norm_num

/-! ## The nearest double -/

section Nearest

variable {n m : Nat} {k e : Int}

theorem pos_of_roundsTo (hc : Canonical m e) (hv : RoundsTo (n * 10 ^ k / 2 ^ e) m e) : 0 < n := by
  rcases Nat.eq_zero_or_pos n with rfl | pos
  · have low := hv.lower
    have := reachDown_le m e
    have : (1 : ℚ) ≤ m := by exact_mod_cast hc.pos
    simp only [Nat.cast_zero, zero_mul, zero_div] at low
    linarith
  · exact pos

/-- What is rounded to a positive double is at least half the least of them. -/
theorem le_of_roundsTo (hc : Canonical m e) (hv : RoundsTo (n * 10 ^ k / 2 ^ e) m e) :
    (2 : ℚ) ^ (-1075 : Int) ≤ n * 10 ^ k := by
  have low := hv.lower
  have half : (1 : ℚ) / 2 ≤ m - reachDown m e := by
    have := reachDown_le m e
    have : (1 : ℚ) ≤ m := by exact_mod_cast hc.pos
    linarith
  rw [le_div_iff₀ (by positivity)] at low
  calc
    (2 : ℚ) ^ (-1075 : Int) = 1 / 2 * 2 ^ (-1074 : Int) := by
      rw [show (-1075 : Int) = -1 + -1074 by norm_num, zpow_add₀ two_ne_zero]
      norm_num
    _ ≤ 1 / 2 * 2 ^ e := mul_le_mul_of_nonneg_left
      (zpow_le_zpow_right₀ one_le_two hc.le) (by norm_num)
    _ ≤ (m - reachDown m e) * 2 ^ e := mul_le_mul_of_nonneg_right half (by positivity)
    _ ≤ n * 10 ^ k := low

theorem ofScientific_small (small : n < 2 ^ 53) (minus : Bool) (i : Fin 23) :
    Float.ofScientific n minus i =
      if minus then n.toUInt64.toFloat / powerOfTen i else n.toUInt64.toFloat * powerOfTen i :=
  dif_pos ⟨small, Nat.le_of_lt_succ i.isLt⟩

/-- Small numbers are computed from doubles. -/
theorem unpacked_small (hc : Canonical m e) (he : e ≤ maxExponent)
    (hv : RoundsTo (n * 10 ^ k / 2 ^ e) m e) (small : n < 2 ^ 53) (hk : k.natAbs < 23) :
    unpacked (nearestDouble n k) = .finite .positive m e hc.pos := by
  have pos := pos_of_roundsTo hc hv
  have whole := unpacked_toFloat pos small
  -- both doubles are exact, so the one rounding of their product or quotient is that of the decimal
  obtain ⟨m', e', hm', power, bits, value⟩ := unpacked_powerOfTen ⟨k.natAbs, hk⟩
  have result := ofScientific_small small (decide (k < 0)) ⟨k.natAbs, hk⟩
  unfold nearestDouble
  rw [result]
  by_cases minus : k < 0
  · have exponent : (10 : ℚ) ^ k = 1 / 10 ^ k.natAbs := by
      rw [← zpow_natCast, Int.ofNat_natAbs_of_nonpos minus.le, zpow_neg, one_div, inv_inv]
    rw [if_pos (decide_eq_true minus)]
    refine unpacked_div whole power hc he ?_
    rw [padded_value, value]
    rwa [exponent, mul_one_div] at hv
  · have exponent : (10 : ℚ) ^ k = 10 ^ k.natAbs := by
      rw [← zpow_natCast, Int.natAbs_of_nonneg (not_lt.mp minus)]
    rw [if_neg (by rw [decide_eq_false minus]; exact Bool.false_ne_true)]
    refine unpacked_mul whole power hc he ?_ ?_
    · calc
        2 ^ 52 ≤ m' := bits
        _ ≤ n <<< padding n * m' :=
          Nat.le_mul_of_pos_left _ (canonical_padded pos small).pos
    · rw [padded_value, value]
      rwa [exponent] at hv

/-- No double is near numbers with a larger exponent. -/
theorem exponent_le_of_roundsTo (hc : Canonical m e) (he : e ≤ maxExponent)
    (hv : RoundsTo (n * 10 ^ k / 2 ^ e) m e) : k ≤ 2 ^ 11 := by
  have pos := pos_of_roundsTo hc hv
  unfold maxExponent at he
  by_contra large
  have power : (2 : ℚ) ^ k ≤ n * 10 ^ k := by
    obtain ⟨i, rfl⟩ := Int.eq_ofNat_of_zero_le (by omega : 0 ≤ k)
    have : (1 : ℚ) ≤ n := by exact_mod_cast pos
    rw [zpow_natCast, zpow_natCast]
    calc
      (2 : ℚ) ^ i ≤ 10 ^ i := pow_le_pow_left₀ two_pos.le (by norm_num) i
      _ ≤ n * 10 ^ i := le_mul_of_one_le_left (by positivity) this
  have := two_zpow_lt_iff.mp (power.trans_lt (lt_of_roundsTo hc hv))
  omega

/-- No positive double is near numbers with a smaller exponent. -/
theorem le_exponent_of_roundsTo (hc : Canonical m e) (hv : RoundsTo (n * 10 ^ k / 2 ^ e) m e) :
    -(2 ^ 11 + (n.log2 : Int)) ≤ k := by
  by_contra tiny
  have size : (n : ℚ) < 2 ^ ((n.log2 : Int) + 1) := by
    rw [← Nat.cast_succ, zpow_natCast]
    exact_mod_cast Nat.lt_log2_self (n := n)
  have ten : (10 : ℚ) ^ k ≤ 2 ^ k := by
    obtain ⟨i, hi⟩ := Int.eq_ofNat_of_zero_le (by omega : 0 ≤ -k)
    rw [show k = -(i : Int) by omega, zpow_neg, zpow_neg, zpow_natCast, zpow_natCast]
    exact inv_anti₀ (by positivity) (pow_le_pow_left₀ two_pos.le (by norm_num) i)
  have power : (n : ℚ) * 10 ^ k < 2 ^ ((n.log2 : Int) + 1 + k) := by
    rw [zpow_add₀ two_ne_zero]
    exact mul_lt_mul size ten (by positivity) (by positivity)
  have := two_zpow_lt_iff.mp ((le_of_roundsTo hc hv).trans_lt power)
  omega

/-- All other numbers are computed exactly. -/
theorem ofScientific_finite (hc : Canonical m e) (he : e ≤ maxExponent)
    (hv : RoundsTo (n * 10 ^ k / 2 ^ e) m e) :
    UnpackedFloat.ofScientific Format.binary64 n k = .finite .positive m e hc.pos := by
  have pos := pos_of_roundsTo hc hv
  have not_large : ¬ k > 2 ^ 11 := not_lt.mpr (exponent_le_of_roundsTo hc he hv)
  have not_tiny : ¬ k < -(2 ^ 11 + (n.log2 : Int)) := not_lt.mpr (le_exponent_of_roundsTo hc hv)
  unfold UnpackedFloat.ofScientific
  rw [dif_neg pos.ne', if_neg not_large, if_neg not_tiny]
  by_cases whole : 0 ≤ k
  · rw [if_pos whole]
    refine mul_finite hc ?_ ?_
    · show 2 ^ 52 ≤ n <<< 53 * 10 ^ k.toNat
      have ten : 1 ≤ 10 ^ k.toNat := Nat.one_le_pow _ _ (by norm_num)
      rw [Nat.shiftLeft_eq]
      calc
        2 ^ 52 ≤ n * 2 ^ 53 := by omega
        _ ≤ n * 2 ^ 53 * 10 ^ k.toNat := Nat.le_mul_of_pos_right _ ten
    · have exponent : (10 : ℚ) ^ k = 10 ^ k.toNat := by
        rw [← zpow_natCast, Int.toNat_of_nonneg whole]
      have value : ((n <<< 53 : Nat) : ℚ) * 2 ^ (-53 : Int) = n := by
        rw [Nat.shiftLeft_eq]
        push_cast
        rw [mul_assoc]
        norm_num
      show RoundsTo (((n <<< 53 : Nat) : ℚ) * 2 ^ (-53 : Int) *
        ((10 ^ k.toNat : Nat) * 2 ^ (0 : Int)) / 2 ^ e) m e
      rw [value, zpow_zero, mul_one]
      push_cast
      rwa [← exponent]
  · rw [if_neg whole]
    refine div_finite hc ?_
    have exponent : (10 : ℚ) ^ k = 1 / 10 ^ (-k).toNat := by
      rw [← zpow_natCast, Int.toNat_of_nonneg (by omega), zpow_neg, one_div, inv_inv]
    rw [zpow_zero, mul_one, mul_one]
    push_cast
    rwa [exponent, mul_one_div] at hv

/-- A decimal that is not made of doubles is rounded once. -/
theorem unpacked_rounded (large : ¬ (n < 2 ^ 53 ∧ k.natAbs ≤ 22)) :
    unpacked (nearestDouble n k) =
      (Float.Model.pack (UnpackedFloat.ofScientific Format.binary64 n k)).unpack := by
  have exponent : (if decide (k < 0) then Int.negOfNat k.natAbs else Int.ofNat k.natAbs) = k := by
    by_cases minus : k < 0
    · rw [if_pos (decide_eq_true minus), Int.negOfNat_eq]
      show -(k.natAbs : Int) = k
      omega
    · rw [if_neg (by rw [decide_eq_false minus]; exact Bool.false_ne_true)]
      show (k.natAbs : Int) = k
      omega
  have exact : nearestDouble n k = Float.ofModel (Float.Model.ofScientific n
      (if decide (k < 0) then Int.negOfNat k.natAbs else Int.ofNat k.natAbs)) := dif_neg large
  rw [exact, exponent]
  rfl

/-- The nearest double is the one in whose interval a decimal lies. -/
theorem unpacked_nearestDouble (hc : Canonical m e) (he : e ≤ maxExponent)
    (hv : RoundsTo (n * 10 ^ k / 2 ^ e) m e) :
    unpacked (nearestDouble n k) = .finite .positive m e hc.pos := by
  by_cases small : n < 2 ^ 53 ∧ k.natAbs ≤ 22
  · exact unpacked_small hc he hv small.1 (by omega)
  · rw [unpacked_rounded small, ofScientific_finite hc he hv, unpack_pack_finite hc he]

end Nearest

/-! ## Decimals of any size -/

theorem isNaN_toFloat {n : Nat} (small : n < 2 ^ 53) :
    (unpacked n.toUInt64.toFloat).isNaN = false := by
  rcases Nat.eq_zero_or_pos n with rfl | pos
  · rfl
  · rw [unpacked_toFloat pos small]
    rfl

theorem isNaN_ofScientific (n : Nat) (k : Int) :
    (UnpackedFloat.ofScientific Format.binary64 n k).isNaN = false := by
  unfold UnpackedFloat.ofScientific
  split
  · rfl
  · split
    · rfl
    · split
      · rfl
      · split
        · exact isNaN_roundWithAccuracy _ _ _ _
        · exact isNaN_roundWithAccuracy _ _ _ _

/-- The nearest double is a number, if only an infinity or zero. -/
theorem isNaN_nearestDouble (n : Nat) (k : Int) : (unpacked (nearestDouble n k)).isNaN = false := by
  by_cases small : n < 2 ^ 53 ∧ k.natAbs ≤ 22
  · obtain ⟨m, e, hm, power, -, -⟩ := unpacked_powerOfTen ⟨k.natAbs, by omega⟩
    have whole := isNaN_toFloat small.1
    have result := ofScientific_small small.1 (decide (k < 0)) ⟨k.natAbs, by omega⟩
    unfold nearestDouble
    rw [result]
    split
    · show (Float.Model.pack (UnpackedFloat.div Format.binary64 (unpacked _)
        (unpacked _))).unpack.isNaN = false
      rw [power]
      exact isNaN_unpack_pack (isNaN_div_finite whole)
    · show (Float.Model.pack (UnpackedFloat.mul Format.binary64 (unpacked _)
        (unpacked _))).unpack.isNaN = false
      rw [power]
      exact isNaN_unpack_pack (isNaN_mul_finite whole)
  · rw [unpacked_rounded small]
    exact isNaN_unpack_pack (isNaN_ofScientific n k)

end Reckoner
