import Reckoner.Proofs.Number.Packing

/-!
# Products and quotients of doubles

The exact product or quotient of two doubles is held to enough bits for one rounding, so the result
is a given double as soon as the exact value lies in its interval.
-/

namespace Reckoner

open Float.Model Float.Model.UnpackedFloat

/-- A double in unpacked form. -/
def unpacked (x : Float) : UnpackedFloat :=
  x.toModel.unpack

theorem unpacked_injective {x y : Float} (h : unpacked x = unpacked y) : x = y := by
  have bits := (unpack_inj_of_valid x.toModel.valid y.toModel.valid).mp h
  exact Float.toBits_inj.mp (UInt64.toBitVec_inj.mp bits)

theorem unpacked_of_parts {x : Float} {u : UnpackedFloat}
    (h : Binary.ofFloat x = Binary.ofUnpacked u) : unpacked x = u :=
  Binary.ofUnpacked_injective ((Binary.ofFloat_eq x).symm.trans h)

section Operations

variable {s₁ s₂ : Sign} {m₁ m₂ m : Nat} {e₁ e₂ e : Int} {h₁ : 0 < m₁} {h₂ : 0 < m₂}

theorem le_exponentFor {M : Nat} (E : Int) (h : 2 ^ 52 ≤ M) : E ≤ exponentFor M E := by
  have := (Nat.le_log2 (by omega)).mpr h
  rw [exponentFor_eq]
  omega

/-- A product is rounded to the double in whose interval it lies. -/
theorem mul_finite (hc : Canonical m e) (bits : 2 ^ 52 ≤ m₁ * m₂)
    (hv : RoundsTo (m₁ * 2 ^ e₁ * (m₂ * 2 ^ e₂) / 2 ^ e) m e) :
    mul Format.binary64 (.finite s₁ m₁ e₁ h₁) (.finite s₂ m₂ e₂ h₂) =
      .finite (s₁ * s₂) m e hc.pos := by
  have value : (m₁ : ℚ) * 2 ^ e₁ * (m₂ * 2 ^ e₂) / 2 ^ (e₁ + e₂) = (m₁ * m₂ : Nat) := by
    rw [zpow_add₀ two_ne_zero]
    field_simp
    push_cast
    ring
  refine roundWithAccuracy_eq hc (v := m₁ * 2 ^ e₁ * (m₂ * 2 ^ e₂)) ?_ (le_exponentFor _ bits) hv _
  rw [value]
  exact holds_exact _

/-! ## Quotients -/

/-- The accuracy says how the fraction after a whole number compares with a half. -/
theorem holds_fraction (q : Nat) {r b : Nat} (hr : r < b) :
    Holds (.ofMantissaAndAccuracy q (accuracyOfFraction r b)) (q + (r : ℚ) / b) := by
  have pos : (0 : ℚ) < b := by exact_mod_cast Nat.zero_lt_of_lt hr
  have below : (r : ℚ) < b := by exact_mod_cast hr
  unfold accuracyOfFraction
  by_cases zero : r = 0
  · rw [if_pos zero, zero, Nat.cast_zero, zero_div, add_zero]
    exact holds_exact q
  · rw [if_neg zero]
    have positive : (0 : ℚ) < r := by exact_mod_cast Nat.pos_of_ne_zero zero
    have fraction : 0 < (r : ℚ) / b := div_pos positive pos
    rcases lt_trichotomy (2 * r) b with less | half | more
    · have : (r : ℚ) / b < 1 / 2 := by
        have : (2 : ℚ) * r < b := by exact_mod_cast less
        rw [div_lt_div_iff₀ pos two_pos]
        linarith
      rw [Nat.compare_eq_lt.mpr less]
      exact ⟨by show (q : ℚ) < _; linarith, by show _ < (q : ℚ) + _; linarith⟩
    · have : (r : ℚ) / b = 1 / 2 := by
        have : (2 : ℚ) * r = b := by exact_mod_cast half
        rw [div_eq_div_iff pos.ne' two_ne_zero]
        linarith
      rw [Nat.compare_eq_eq.mpr half, this]
      rfl
    · have : 1 / 2 < (r : ℚ) / b := by
        have : (b : ℚ) < 2 * r := by exact_mod_cast more
        rw [div_lt_div_iff₀ two_pos pos]
        linarith
      have : (r : ℚ) / b < 1 := (div_lt_one pos).mpr below
      rw [Nat.compare_eq_gt.mpr more]
      exact ⟨by show (q : ℚ) + _ < _; linarith, by show _ < (q : ℚ) + _; linarith⟩

theorem holds_quotient (a : Nat) {b : Nat} (hb : 0 < b) :
    Holds (.ofMantissaAndAccuracy (a / b) (accuracyOfFraction (a % b) b)) ((a : ℚ) / b) := by
  have parts : (a : ℚ) / b = (a / b : Nat) + ((a % b : Nat) : ℚ) / b := by
    have : (a : ℚ) = b * (a / b : Nat) + (a % b : Nat) := by
      exact_mod_cast (Nat.div_add_mod a b).symm
    rw [this]
    field_simp
  rw [parts]
  exact holds_fraction (a / b) (Nat.mod_lt a hb)

/-- The exponent that a quotient is computed at. -/
def quotientExponent (m₁ : Nat) (e₁ : Int) (m₂ : Nat) (e₂ : Int) : Int :=
  min (e₁ - e₂) (max ((m₁.log2 : Int) - m₂.log2 + e₁ - e₂ - 53) (-1074))

theorem divCore_eq (m₁ : Nat) (e₁ : Int) (m₂ : Nat) (e₂ : Int) :
    divCore Format.binary64 m₁ e₁ m₂ e₂ =
      let E := quotientExponent m₁ e₁ m₂ e₂
      let a := m₁ <<< (e₁ - e₂ - E).toNat
      (a / m₂, E, accuracyOfFraction (a % m₂) m₂) := by
  have exponent : min (e₁ - e₂) (Format.binary64.targetExponent
      (totalExponent m₁ e₁ - totalExponent m₂ e₂)) = quotientExponent m₁ e₁ m₂ e₂ := by
    simp only [quotientExponent, Format.targetExponent, totalExponent, Format.mantissaBits,
      Format.minExponent]
    norm_num
    congr 2
    ring
  unfold divCore
  rw [exponent]

/-- At that exponent the quotient has enough bits for a double. -/
theorem quotient_bits (h₁ : 0 < m₁) (h₂ : 0 < m₂) {E : Int}
    (hE : E = quotientExponent m₁ e₁ m₂ e₂) :
    E ≤ exponentFor (m₁ <<< (e₁ - e₂ - E).toNat / m₂) E := by
  by_cases least : E ≤ -1074
  · rw [exponentFor_eq]
    omega
  · apply le_exponentFor
    unfold quotientExponent at hE
    -- the dividend is shifted until it has 53 bits more than the divisor
    have shift : m₂.log2 + 53 ≤ m₁.log2 + (e₁ - e₂ - E).toNat := by omega
    rw [Nat.le_div_iff_mul_le h₂, Nat.shiftLeft_eq]
    calc
      2 ^ 52 * m₂ ≤ 2 ^ 52 * 2 ^ (m₂.log2 + 1) :=
        Nat.mul_le_mul_left _ (Nat.lt_log2_self (n := m₂)).le
      _ = 2 ^ (m₂.log2 + 53) := by rw [← pow_add]; congr 1; omega
      _ ≤ 2 ^ (m₁.log2 + (e₁ - e₂ - E).toNat) := Nat.pow_le_pow_right two_pos shift
      _ = 2 ^ m₁.log2 * 2 ^ (e₁ - e₂ - E).toNat := pow_add _ _ _
      _ ≤ m₁ * 2 ^ (e₁ - e₂ - E).toNat := Nat.mul_le_mul_right _ (Nat.log2_self_le h₁.ne')

/-- A quotient is rounded to the double in whose interval it lies. -/
theorem div_finite (hc : Canonical m e)
    (hv : RoundsTo (m₁ * 2 ^ e₁ / (m₂ * 2 ^ e₂) / 2 ^ e) m e) :
    div Format.binary64 (.finite s₁ m₁ e₁ h₁) (.finite s₂ m₂ e₂ h₂) =
      .finite (s₁ / s₂) m e hc.pos := by
  obtain ⟨E, hE⟩ : ∃ E, E = quotientExponent m₁ e₁ m₂ e₂ := ⟨_, rfl⟩
  have core := divCore_eq m₁ e₁ m₂ e₂
  rw [← hE] at core
  have pos : (0 : ℚ) < m₂ := by exact_mod_cast h₂
  have value : (m₁ : ℚ) * 2 ^ e₁ / (m₂ * 2 ^ e₂) / 2 ^ E =
      ((m₁ <<< (e₁ - e₂ - E).toNat : Nat) : ℚ) / m₂ := by
    have le : E ≤ e₁ - e₂ := by
      rw [hE]
      exact min_le_left _ _
    have shift : (2 : ℚ) ^ (e₁ - e₂ - E).toNat = 2 ^ e₁ / 2 ^ e₂ / 2 ^ E := by
      rw [← zpow_natCast, Int.toNat_of_nonneg (by omega), zpow_sub₀ two_ne_zero,
        zpow_sub₀ two_ne_zero]
    rw [Nat.shiftLeft_eq]
    push_cast
    rw [shift]
    field_simp
  unfold UnpackedFloat.div
  simp only [core]
  refine roundWithAccuracy_eq hc (v := m₁ * 2 ^ e₁ / (m₂ * 2 ^ e₂)) ?_ (quotient_bits h₁ h₂ hE) hv _
  rw [value]
  exact holds_quotient _ h₂

end Operations

/-! ## Results that are numbers -/

theorem isNaN_roundWithAccuracy (s : Sign) (M : Nat) (E : Int) (acc : Accuracy) :
    (roundWithAccuracy Format.binary64 s M E acc).isNaN = false := by
  unfold roundWithAccuracy
  dsimp only
  split <;> rfl

section Finite

variable {s : Sign} {m : Nat} {e : Int} {hm : 0 < m} {u : UnpackedFloat}

theorem isNaN_finite_mul (hu : u.isNaN = false) :
    (UnpackedFloat.mul Format.binary64 (.finite s m e hm) u).isNaN = false := by
  cases u with
  | notANumber => cases hu
  | infinity _ => rfl
  | zero _ => rfl
  | finite _ _ _ _ => exact isNaN_roundWithAccuracy _ _ _ _

theorem isNaN_mul_finite (hu : u.isNaN = false) :
    (UnpackedFloat.mul Format.binary64 u (.finite s m e hm)).isNaN = false := by
  cases u with
  | notANumber => cases hu
  | infinity _ => rfl
  | zero _ => rfl
  | finite _ _ _ _ => exact isNaN_roundWithAccuracy _ _ _ _

theorem isNaN_div_finite (hu : u.isNaN = false) :
    (UnpackedFloat.div Format.binary64 u (.finite s m e hm)).isNaN = false := by
  cases u with
  | notANumber => cases hu
  | infinity _ => rfl
  | zero _ => rfl
  | finite _ _ _ _ => exact isNaN_roundWithAccuracy _ _ _ _

end Finite

/-! ## Operations on packed doubles -/

section Packed

variable {x y : Float} {s₁ s₂ : Sign} {m₁ m₂ m : Nat} {e₁ e₂ e : Int} {h₁ : 0 < m₁} {h₂ : 0 < m₂}

theorem unpacked_mul (hx : unpacked x = .finite s₁ m₁ e₁ h₁) (hy : unpacked y = .finite s₂ m₂ e₂ h₂)
    (hc : Canonical m e) (he : e ≤ maxExponent) (bits : 2 ^ 52 ≤ m₁ * m₂)
    (hv : RoundsTo (m₁ * 2 ^ e₁ * (m₂ * 2 ^ e₂) / 2 ^ e) m e) :
    unpacked (x * y) = .finite (s₁ * s₂) m e hc.pos := by
  show (Float.Model.pack (UnpackedFloat.mul Format.binary64 (unpacked x) (unpacked y))).unpack = _
  rw [hx, hy, mul_finite hc bits hv, unpack_pack_finite hc he]

theorem unpacked_div (hx : unpacked x = .finite s₁ m₁ e₁ h₁) (hy : unpacked y = .finite s₂ m₂ e₂ h₂)
    (hc : Canonical m e) (he : e ≤ maxExponent)
    (hv : RoundsTo (m₁ * 2 ^ e₁ / (m₂ * 2 ^ e₂) / 2 ^ e) m e) :
    unpacked (x / y) = .finite (s₁ / s₂) m e hc.pos := by
  show (Float.Model.pack (UnpackedFloat.div Format.binary64 (unpacked x) (unpacked y))).unpack = _
  rw [hx, hy, div_finite hc hv, unpack_pack_finite hc he]

end Packed

end Reckoner
