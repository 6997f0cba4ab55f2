import Reckoner.Number.Binary
import Reckoner.Proofs.Number.Rounding

/-!
# Doubles and their bits

A double is kept as its bits, and computed with in unpacked form. Packing loses nothing of a result
that is rounded and not too large, and `Binary.ofFloat` takes a double apart as unpacking does.
-/

namespace Reckoner

open Float.Model Float.Model.UnpackedFloat

/-- The largest exponent of a double. -/
def maxExponent : Int := 971

/-! ## Fields of a bit pattern -/

section Fields

variable (b : BitVec Format.binary64.numBits)

theorem toNat_unpackMantissa : (unpackMantissa b).toNat = b.toNat % 2 ^ 52 := by
  rw [unpackMantissa, BitVec.toNat_cast, BitVec.extractLsb_toNat, Nat.shiftRight_zero]
  rfl

theorem toNat_unpackExponent : (unpackExponent b).toNat = b.toNat / 2 ^ 52 % 2 ^ 11 := by
  rw [unpackExponent, BitVec.toNat_cast, BitVec.extractLsb_toNat, Nat.shiftRight_eq_div_pow]
  rfl

theorem toNat_unpackSign : (unpackSign b).toNat = b.toNat / 2 ^ 63 := by
  have : b.toNat < 2 ^ 64 := b.isLt
  rw [unpackSign, BitVec.toNat_cast, BitVec.extractLsb_toNat, Nat.shiftRight_eq_div_pow]
  show b.toNat / 2 ^ 63 % 2 ^ 1 = _
  omega

theorem ofBitVec_unpackSign :
    Sign.ofBitVec (unpackSign b) = if 2 ^ 63 ≤ b.toNat then .negative else .positive := by
  have sign := toNat_unpackSign b
  have : b.toNat < 2 ^ 64 := b.isLt
  unfold Sign.ofBitVec
  by_cases big : 2 ^ 63 ≤ b.toNat
  · have : unpackSign b ≠ 0#1 := by
      intro zero
      rw [zero] at sign
      simp only [BitVec.toNat_zero] at sign
      omega
    rw [if_neg this, if_pos big]
  · have : unpackSign b = 0#1 := by
      apply BitVec.eq_of_toNat_eq
      rw [sign, BitVec.toNat_zero]
      omega
    rw [if_pos this, if_neg big]

theorem unpackExponent_eq_ones : unpackExponent b = -1#_ ↔ b.toNat / 2 ^ 52 % 2 ^ 11 = 2047 := by
  rw [← toNat_unpackExponent, ← BitVec.toNat_inj]
  rfl

theorem unpackExponent_eq_zero : unpackExponent b = 0#_ ↔ b.toNat / 2 ^ 52 % 2 ^ 11 = 0 := by
  rw [← toNat_unpackExponent, ← BitVec.toNat_inj]
  rfl

theorem unpackMantissa_eq_zero : unpackMantissa b = 0#_ ↔ b.toNat % 2 ^ 52 = 0 := by
  rw [← toNat_unpackMantissa, ← BitVec.toNat_inj]
  rfl

end Fields

theorem toNat_implicit (f : BitVec 52) : (1#1 ++ f).toNat = 2 ^ 52 + f.toNat := by
  rw [BitVec.toNat_append, ← Nat.shiftLeft_add_eq_or_of_lt f.isLt]
  rfl

/-! ## Unpacked bit patterns -/

section Unpacked

variable {b : BitVec Format.binary64.numBits}

/-- The sign of a bit pattern. -/
def signOf (b : BitVec Format.binary64.numBits) : Sign :=
  Sign.ofBitVec (unpackSign b)

theorem finite_congr {s : Sign} {m m' : Nat} {e e' : Int} (hm : 0 < m) (hm' : 0 < m')
    (mantissa : m = m') (exponent : e = e') :
    UnpackedFloat.finite s m e hm = .finite s m' e' hm' := by
  subst mantissa exponent
  rfl

theorem unpack_infinity (he : b.toNat / 2 ^ 52 % 2 ^ 11 = 2047) (hf : b.toNat % 2 ^ 52 = 0) :
    UnpackedFloat.unpack Format.binary64 b = .infinity (signOf b) := by
  unfold UnpackedFloat.unpack
  exact (if_pos ((unpackExponent_eq_ones b).mpr he)).trans
    (if_pos ((unpackMantissa_eq_zero b).mpr hf))

theorem unpack_notANumber (he : b.toNat / 2 ^ 52 % 2 ^ 11 = 2047) (hf : b.toNat % 2 ^ 52 ≠ 0) :
    UnpackedFloat.unpack Format.binary64 b = .notANumber := by
  unfold UnpackedFloat.unpack
  exact (if_pos ((unpackExponent_eq_ones b).mpr he)).trans
    (if_neg (mt (unpackMantissa_eq_zero b).mp hf))

theorem unpack_zero (he : b.toNat / 2 ^ 52 % 2 ^ 11 = 0) (hf : b.toNat % 2 ^ 52 = 0) :
    UnpackedFloat.unpack Format.binary64 b = .zero (signOf b) := by
  have finite : b.toNat / 2 ^ 52 % 2 ^ 11 ≠ 2047 := by omega
  unfold UnpackedFloat.unpack
  exact (if_neg (mt (unpackExponent_eq_ones b).mp finite)).trans
    ((if_pos ((unpackExponent_eq_zero b).mpr he)).trans
      (dif_pos ((unpackMantissa_eq_zero b).mpr hf)))

theorem unpack_subnormal (he : b.toNat / 2 ^ 52 % 2 ^ 11 = 0) (hf : b.toNat % 2 ^ 52 ≠ 0) :
    UnpackedFloat.unpack Format.binary64 b =
      .finite (signOf b) (b.toNat % 2 ^ 52) (-1074) (Nat.pos_of_ne_zero hf) := by
  have finite : b.toNat / 2 ^ 52 % 2 ^ 11 ≠ 2047 := by omega
  have zero := (unpackExponent_eq_zero b).mpr he
  unfold UnpackedFloat.unpack
  refine (if_neg (mt (unpackExponent_eq_ones b).mp finite)).trans
    ((if_pos zero).trans ((dif_neg (mt (unpackMantissa_eq_zero b).mp hf)).trans ?_))
  refine finite_congr _ _ (toNat_unpackMantissa b) ?_
  rw [zero]
  rfl

theorem unpack_normal (he : b.toNat / 2 ^ 52 % 2 ^ 11 ≠ 2047)
    (hz : b.toNat / 2 ^ 52 % 2 ^ 11 ≠ 0) :
    UnpackedFloat.unpack Format.binary64 b =
      .finite (signOf b) (2 ^ 52 + b.toNat % 2 ^ 52) ((b.toNat / 2 ^ 52 % 2 ^ 11 : Nat) - 1075)
        (Nat.add_pos_left (Nat.two_pow_pos 52) _) := by
  unfold UnpackedFloat.unpack
  refine (if_neg (mt (unpackExponent_eq_ones b).mp he)).trans
    ((if_neg (mt (unpackExponent_eq_zero b).mp hz)).trans ?_)
  refine finite_congr _ _ ?_ ?_
  · rw [← toNat_unpackMantissa]
    exact toNat_implicit _
  · rw [← toNat_unpackExponent]
    rfl

/-- What is unpacked is rounded, and in the range of doubles. -/
theorem canonical_unpack {s : Sign} {m : Nat} {e : Int} {hm : 0 < m}
    (h : UnpackedFloat.unpack Format.binary64 b = .finite s m e hm) :
    Canonical m e ∧ e ≤ maxExponent := by
  have small := Nat.mod_lt b.toNat (Nat.two_pow_pos 52)
  have short := Nat.mod_lt (b.toNat / 2 ^ 52) (Nat.two_pow_pos 11)
  unfold maxExponent
  by_cases he : b.toNat / 2 ^ 52 % 2 ^ 11 = 2047
  · by_cases hf : b.toNat % 2 ^ 52 = 0
    · rw [unpack_infinity he hf] at h
      cases h
    · rw [unpack_notANumber he hf] at h
      cases h
  · by_cases hz : b.toNat / 2 ^ 52 % 2 ^ 11 = 0
    · by_cases hf : b.toNat % 2 ^ 52 = 0
      · rw [unpack_zero hz hf] at h
        cases h
      · rw [unpack_subnormal hz hf] at h
        cases h
        exact ⟨⟨hm, by omega, le_rfl, .inr rfl⟩, by omega⟩
    · rw [unpack_normal he hz] at h
      cases h
      exact ⟨⟨hm, by omega, by omega, .inl (by omega)⟩, by omega⟩

end Unpacked

/-! ## Packing and unpacking -/

section Components

variable (s : Sign) (e : BitVec 11) (f : BitVec 52)

theorem exponent_packComponents :
    (packComponents Format.binary64 s e f).toNat / 2 ^ 52 % 2 ^ 11 = e.toNat := by
  rw [← toNat_unpackExponent, unpackExponent_packComponents]

theorem fraction_packComponents :
    (packComponents Format.binary64 s e f).toNat % 2 ^ 52 = f.toNat := by
  rw [← toNat_unpackMantissa, unpackMantissa_packComponents]

theorem signOf_packComponents : signOf (packComponents Format.binary64 s e f) = s := by
  rw [signOf, unpackSign_packComponents, Sign.ofBitVec_toBitVec]

end Components

theorem unpack_packedInfinity (s : Sign) :
    UnpackedFloat.unpack Format.binary64 (packedInfinity Format.binary64 s) = .infinity s := by
  have exponent := exponent_packComponents s (-1#11) 0
  have fraction := fraction_packComponents s (-1#11) 0
  exact (unpack_infinity exponent fraction).trans
    (congrArg UnpackedFloat.infinity (signOf_packComponents s (-1#11) 0))

/-- The exponent field of a double with an exponent of `e`. -/
def biased (e : Int) : Nat :=
  (e + 1023 + 52).toNat

section Pack

variable {s : Sign} {m : Nat} {e : Int} {hm : 0 < m}

theorem pack_normal (fits : ¬ 2 ^ 11 ≤ biased e + 1) (full : m.log2 + 1 = 53) :
    UnpackedFloat.pack Format.binary64 (.finite s m e hm) =
      packComponents Format.binary64 s (BitVec.ofNat 11 (biased e)) (BitVec.ofNat 52 m) :=
  (if_neg fits).trans (if_pos full)

theorem pack_subnormal (fits : ¬ 2 ^ 11 ≤ biased e + 1) (short : ¬ m.log2 + 1 = 53) :
    UnpackedFloat.pack Format.binary64 (.finite s m e hm) =
      packComponents Format.binary64 s 0#11 (BitVec.ofNat 52 m) :=
  (if_neg fits).trans (if_neg short)

end Pack

/-- Nothing is lost by packing a rounded result in the range of doubles. -/
theorem unpack_pack_finite {m : Nat} {e : Int} (hc : Canonical m e) (he : e ≤ maxExponent)
    (s : Sign) :
    (Float.Model.pack (.finite s m e hc.pos)).unpack = .finite s m e hc.pos := by
  have le := hc.le
  have lt := hc.lt
  unfold maxExponent at he
  show UnpackedFloat.unpack _ (UnpackedFloat.pack _ _) = _
  have size : (biased e : Int) = e + 1075 := by
    unfold biased
    omega
  have fits : ¬ 2 ^ 11 ≤ biased e + 1 := by omega
  -- the leading bit of a full mantissa is not stored, and unpacking puts it back
  by_cases full : 2 ^ 52 ≤ m
  · have log : m.log2 + 1 = 53 := by
      have := hc.log2_le
      have := (Nat.le_log2 hc.pos.ne').mpr full
      omega
    have exponent := exponent_packComponents s (BitVec.ofNat 11 (biased e)) (BitVec.ofNat 52 m)
    have fraction := fraction_packComponents s (BitVec.ofNat 11 (biased e)) (BitVec.ofNat 52 m)
    rw [BitVec.toNat_ofNat] at exponent fraction
    rw [pack_normal fits log, unpack_normal (by omega) (by omega), signOf_packComponents]
    exact finite_congr _ _ (by omega) (by omega)
  · have log : ¬ m.log2 + 1 = 53 := by
      have := (Nat.log2_lt hc.pos.ne').mpr (not_le.mp full)
      omega
    have exponent := exponent_packComponents s 0#11 (BitVec.ofNat 52 m)
    have fraction := fraction_packComponents s 0#11 (BitVec.ofNat 52 m)
    rw [BitVec.toNat_ofNat] at fraction
    rw [BitVec.toNat_zero] at exponent
    have := hc.pos
    rw [pack_subnormal fits log, unpack_subnormal exponent (by omega), signOf_packComponents]
    exact finite_congr _ _ (by omega) (hc.full.resolve_left full).symm

/-- A bit pattern with another exponent than that of infinities is a number. -/
theorem isNaN_unpack {b : BitVec Format.binary64.numBits}
    (he : b.toNat / 2 ^ 52 % 2 ^ 11 ≠ 2047) :
    (UnpackedFloat.unpack Format.binary64 b).isNaN = false := by
  by_cases hz : b.toNat / 2 ^ 52 % 2 ^ 11 = 0
  · by_cases hf : b.toNat % 2 ^ 52 = 0
    · rw [unpack_zero hz hf]
      rfl
    · rw [unpack_subnormal hz hf]
      rfl
  · rw [unpack_normal he hz]
    rfl

/-- Packing does not make a number something else. -/
theorem isNaN_unpack_pack {u : UnpackedFloat} (h : u.isNaN = false) :
    (Float.Model.pack u).unpack.isNaN = false := by
  cases u with
  | notANumber => cases h
  | infinity s => exact congrArg UnpackedFloat.isNaN (unpack_packedInfinity s)
  | zero s => exact congrArg UnpackedFloat.isNaN unpack_packedZero
  | finite s m e hm =>
    -- a result that is too large for the exponent field is packed as an infinity
    by_cases large : 2 ^ 11 ≤ biased e + 1
    · have packed : UnpackedFloat.pack Format.binary64 (.finite s m e hm) =
          packedInfinity Format.binary64 s := if_pos large
      show (UnpackedFloat.unpack _ (UnpackedFloat.pack _ _)).isNaN = false
      rw [packed]
      exact congrArg UnpackedFloat.isNaN (unpack_packedInfinity s)
    · show (UnpackedFloat.unpack _ (UnpackedFloat.pack _ _)).isNaN = false
      apply isNaN_unpack
      by_cases full : m.log2 + 1 = 53
      · rw [pack_normal large full, exponent_packComponents, BitVec.toNat_ofNat]
        omega
      · rw [pack_subnormal large full, exponent_packComponents, BitVec.toNat_zero]
        omega

/-! ## Taking a double apart -/

namespace Binary

/-- The sign is a minus. -/
def isMinus : Sign → Bool
  | .negative => true
  | .positive => false

/-- The parts of an unpacked double. -/
def ofUnpacked : UnpackedFloat → Binary
  | .notANumber => .nan
  | .infinity s => .infinite (isMinus s)
  | .zero s => .finite (isMinus s) 0 minExponent
  | .finite s m e _ => .finite (isMinus s) m e

theorem isMinus_signOf (b : BitVec Format.binary64.numBits) :
    isMinus (signOf b) = decide (2 ^ 63 ≤ b.toNat) := by
  rw [signOf, ofBitVec_unpackSign]
  split
  · rw [decide_eq_true ‹_›]
    rfl
  · rw [decide_eq_false ‹_›]
    rfl

/-- A double is taken apart into the parts of its unpacked form. -/
theorem ofFloat_eq (x : Float) : ofFloat x = ofUnpacked x.toModel.unpack := by
  have bits : x.toBits.toNat = x.toModel.toBits.toBitVec.toNat := rfl
  unfold ofFloat Float.Model.unpack
  rw [bits]
  generalize x.toModel.toBits.toBitVec = b
  have sign : isMinus (signOf b) = decide (signPlace ≤ b.toNat) := isMinus_signOf b
  dsimp only
  by_cases he : b.toNat / fractionPlace % exponentPlace = exponentPlace - 1
  · rw [if_pos he]
    by_cases hf : b.toNat % fractionPlace = 0
    · rw [if_pos hf, unpack_infinity he hf, ofUnpacked, sign]
    · rw [if_neg hf, unpack_notANumber he hf, ofUnpacked]
  · rw [if_neg he]
    by_cases hz : b.toNat / fractionPlace % exponentPlace = 0
    · rw [if_pos hz]
      by_cases hf : b.toNat % fractionPlace = 0
      · rw [unpack_zero hz hf, ofUnpacked, sign, hf]
      · rw [unpack_subnormal hz hf, ofUnpacked, sign]
        rfl
    · rw [if_neg hz, unpack_normal he hz, ofUnpacked, sign]
      congr 1
      show -1074 + (_ : Int) - 1 = _ - 1075
      ring_nf
      rfl

theorem isMinus_injective {s t : Sign} (h : isMinus s = isMinus t) : s = t := by
  cases s <;> cases t
  · rfl
  · cases h
  · cases h
  · rfl

/-- The parts single out the unpacked form. -/
theorem ofUnpacked_injective {u v : UnpackedFloat} (h : ofUnpacked u = ofUnpacked v) : u = v := by
  cases u <;> cases v <;> simp only [ofUnpacked, reduceCtorEq, infinite.injEq, finite.injEq] at h
  · rw [isMinus_injective h]
  · rfl
  · rw [isMinus_injective h.1]
  · omega
  · omega
  · obtain ⟨sign, rfl, rfl⟩ := h
    rw [isMinus_injective sign]

end Binary

end Reckoner
