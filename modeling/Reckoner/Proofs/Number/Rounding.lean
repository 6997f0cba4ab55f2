import Mathlib

/-!
# Rounding to doubles

Arithmetic on doubles is exact up to one rounding: the exact result is held as a mantissa with two
more bits, cut to the exponent that a double of its size has, and rounded to the nearest mantissa.
`roundWithAccuracy_eq` says when the result is a given double: the exact value lies in the double's
interval, which reaches half a place up and down, and only a quarter down where the double below is
nearer.
-/

namespace Reckoner

open Float.Model Float.Model.UnpackedFloat

/-- The mantissa and exponent of a positive double. Only at the least exponent may the mantissa have
fewer than 53 bits. -/
structure Canonical (m : Nat) (e : Int) : Prop where
  pos : 0 < m
  lt : m < 2 ^ 53
  le : -1074 ≤ e
  full : 2 ^ 52 ≤ m ∨ e = -1074

/-- How far the interval of a double reaches down, in places of its mantissa. -/
def reachDown (m : Nat) (e : Int) : ℚ :=
  if m = 2 ^ 52 ∧ -1074 < e then 1 / 4 else 1 / 2

/-- The interval of the double `m · 2 ^ e`, in places of its mantissa: what lies there is rounded to
it. The ends belong to doubles with an even mantissa. -/
structure RoundsTo (x : ℚ) (m : Nat) (e : Int) : Prop where
  lower : m - reachDown m e ≤ x
  upper : x ≤ m + 1 / 2
  inside : m % 2 = 1 → (m : ℚ) - 1 / 2 < x ∧ x < m + 1 / 2

theorem reachDown_pos (m : Nat) (e : Int) : 0 < reachDown m e := by
  unfold reachDown
  split <;> norm_num

theorem reachDown_le (m : Nat) (e : Int) : reachDown m e ≤ 1 / 2 := by
  unfold reachDown
  split <;> norm_num

/-- A double lies in its own interval. -/
theorem roundsTo_self (m : Nat) (e : Int) : RoundsTo m m e := by
  have := reachDown_pos m e
  exact ⟨by linarith, by linarith, fun _ => ⟨by linarith, by linarith⟩⟩

/-- `r` is the whole number nearest to `x`, the even one of two. -/
structure NearestTo (x : ℚ) (r : Nat) : Prop where
  lower : (r : ℚ) - 1 / 2 ≤ x
  upper : x ≤ r + 1 / 2
  inside : r % 2 = 1 → (r : ℚ) - 1 / 2 < x ∧ x < r + 1 / 2

/-! ## The bits after a mantissa -/

/-- The mantissa is the whole part of `x`, and the bits say how the rest compares with a half. -/
def Holds (em : ExtendedMantissa) (x : ℚ) : Prop :=
  match em.roundBit, em.stickyBit with
  | false, false => x = em.mantissa
  | false, true => (em.mantissa : ℚ) < x ∧ x < em.mantissa + 1 / 2
  | true, false => x = em.mantissa + 1 / 2
  | true, true => (em.mantissa : ℚ) + 1 / 2 < x ∧ x < em.mantissa + 1

theorem Holds.le {em : ExtendedMantissa} {x : ℚ} (h : Holds em x) : (em.mantissa : ℚ) ≤ x := by
  obtain ⟨m, r, s⟩ := em
  cases r <;> cases s <;> simp only [Holds] at h ⊢ <;> linarith

theorem Holds.lt {em : ExtendedMantissa} {x : ℚ} (h : Holds em x) : x < em.mantissa + 1 := by
  obtain ⟨m, r, s⟩ := em
  cases r <;> cases s <;> simp only [Holds] at h ⊢ <;> linarith

theorem holds_exact (m : Nat) : Holds (.ofMantissaAndAccuracy m .exact) m := rfl

theorem holds_shiftRightOne {em : ExtendedMantissa} {x : ℚ} (h : Holds em x) :
    Holds em.shiftRightOne (x / 2) := by
  obtain ⟨m, r, s⟩ := em
  have parts : (m : ℚ) = 2 * (m / 2 : Nat) + (m % 2 : Nat) := by
    exact_mod_cast (Nat.div_add_mod m 2).symm
  -- the bit shifted out becomes the round bit, and both old bits go into the sticky one
  rcases Nat.mod_two_eq_zero_or_one m with even | odd
  · rw [even] at parts
    cases r <;> cases s <;>
      simp only [Holds, ExtendedMantissa.shiftRightOne, even, bne_self_eq_false, Bool.or_false,
        Bool.or_true, parts] at h ⊢ <;>
      push_cast at h ⊢ <;> first | linarith | constructor <;> linarith
  · rw [odd] at parts
    cases r <;> cases s <;>
      simp only [Holds, ExtendedMantissa.shiftRightOne, odd, Nat.reduceBNe, Bool.or_false,
        Bool.or_true, parts] at h ⊢ <;>
      push_cast at h ⊢ <;> first | linarith | constructor <;> linarith

theorem holds_shiftRight {em : ExtendedMantissa} {x : ℚ} (h : Holds em x) (n : Nat) :
    Holds (em >>> n) (x / 2 ^ n) := by
  show Holds (n.repeat ExtendedMantissa.shiftRightOne em) _
  induction n with
  | zero =>
    rw [pow_zero, div_one]
    exact h
  | succ n ih =>
    rw [pow_succ, ← div_div]
    exact holds_shiftRightOne ih

theorem Holds.roundedMantissa {em : ExtendedMantissa} {x : ℚ} {r : Nat} (h : Holds em x)
    (hr : NearestTo x r) : em.roundedMantissa = r := by
  have low := hr.lower
  have high := hr.upper
  have odd := hr.inside
  obtain ⟨m, b, s⟩ := em
  cases b <;> cases s <;> simp only [Holds] at h
  · -- the value is the mantissa itself
    show m = r
    rw [h] at low high
    have h1 : (r : ℚ) < m + 1 := by linarith
    have h2 : (m : ℚ) < r + 1 := by linarith
    norm_cast at h1 h2
    omega
  · show m = r
    have h1 : (r : ℚ) < m + 1 := by linarith
    have h2 : (m : ℚ) < r + 1 := by linarith
    norm_cast at h1 h2
    omega
  · -- a tie, so `r` is even and one of two neighbours
    show m + m % 2 = r
    have h1 : (r : ℚ) ≤ m + 1 := by linarith
    have h2 : (m : ℚ) ≤ r := by linarith
    have even : r % 2 ≠ 1 := by
      intro hodd
      obtain ⟨h3, h4⟩ := odd hodd
      have h5 : (r : ℚ) < m + 1 := by linarith
      have h6 : (m : ℚ) < r := by linarith
      norm_cast at h5 h6
      omega
    norm_cast at h1 h2
    omega
  · show m + 1 = r
    have h1 : (r : ℚ) < m + 1 + 1 := by linarith
    have h2 : (m : ℚ) < r := by linarith
    norm_cast at h1 h2
    omega

/-! ## The exponent of a result -/

/-- The exponent that a double has when the highest bit of its value is that of `m · 2 ^ e`. -/
def exponentFor (m : Nat) (e : Int) : Int :=
  Format.binary64.targetExponent (totalExponent m e)

theorem exponentFor_eq (m : Nat) (e : Int) : exponentFor m e = max (m.log2 + e - 52) (-1074) := by
  simp only [exponentFor, Format.targetExponent, totalExponent, Format.mantissaBits,
    Format.minExponent]
  norm_num
  congr 1
  ring

theorem shiftToTargetExponent_eq (m : Nat) (e : Int) (acc : Accuracy) (h : e ≤ exponentFor m e) :
    shiftToTargetExponent Format.binary64 m e acc =
      (ExtendedMantissa.ofMantissaAndAccuracy m acc >>> (exponentFor m e - e).toNat,
        exponentFor m e) := by
  have back : e + (exponentFor m e - e).toNat = exponentFor m e := by omega
  show (_, e + ((exponentFor m e - e).toNat : Int)) = _
  rw [back]
  rfl

theorem holds_shifted {em : ExtendedMantissa} {v : ℚ} {e t : Int} (h : Holds em (v / 2 ^ e))
    (le : e ≤ t) : Holds (em >>> (t - e).toNat) (v / 2 ^ t) := by
  have shifted := holds_shiftRight h (t - e).toNat
  have power : (2 : ℚ) ^ t = 2 ^ e * 2 ^ (t - e).toNat := by
    rw [← zpow_natCast, ← zpow_add₀ two_ne_zero]
    congr 1
    omega
  rwa [power, ← div_div]

theorem Canonical.log2_le {m : Nat} {e : Int} (h : Canonical m e) : m.log2 ≤ 52 :=
  Nat.le_of_lt_succ ((Nat.log2_lt h.pos.ne').mpr h.lt)

theorem Canonical.exponentFor_eq {m : Nat} {e : Int} (h : Canonical m e) : exponentFor m e = e := by
  have := h.log2_le
  have := h.le
  rw [Reckoner.exponentFor_eq]
  rcases h.full with full | least
  · have := (Nat.le_log2 h.pos.ne').mpr full
    omega
  · omega

/-! ## The result of rounding -/

section Result

variable {m M : Nat} {e E : Int} {v : ℚ} {acc : Accuracy}

theorem two_zpow_lt_iff {i j : Int} : (2 : ℚ) ^ i < 2 ^ j ↔ i < j :=
  zpow_lt_zpow_iff_right₀ one_lt_two

theorem mantissa_ofMantissaAndAccuracy (M : Nat) (acc : Accuracy) :
    (ExtendedMantissa.ofMantissaAndAccuracy M acc).mantissa = M := by
  rcases acc with _ | (_ | _ | _) <;> rfl

theorem value_lt (h : Holds (.ofMantissaAndAccuracy M acc) (v / 2 ^ E)) :
    v < 2 ^ ((M.log2 : Int) + 1 + E) := by
  have below := h.lt
  rw [mantissa_ofMantissaAndAccuracy, div_lt_iff₀ (by positivity)] at below
  have power : (M : ℚ) + 1 ≤ 2 ^ ((M.log2 : Int) + 1) := by
    have := Nat.lt_log2_self (n := M)
    rw [← Nat.cast_succ, ← Nat.cast_succ, zpow_natCast]
    exact_mod_cast this
  calc
    v < (M + 1) * 2 ^ E := below
    _ ≤ 2 ^ ((M.log2 : Int) + 1) * 2 ^ E := mul_le_mul_of_nonneg_right power (by positivity)
    _ = 2 ^ ((M.log2 : Int) + 1 + E) := (zpow_add₀ two_ne_zero _ _).symm

theorem le_value (h : Holds (.ofMantissaAndAccuracy M acc) (v / 2 ^ E)) (pos : 0 < M) :
    2 ^ ((M.log2 : Int) + E) ≤ v := by
  have above := h.le
  rw [mantissa_ofMantissaAndAccuracy, le_div_iff₀ (by positivity)] at above
  have power : (2 : ℚ) ^ (M.log2 : Int) ≤ M := by
    rw [zpow_natCast]
    exact_mod_cast Nat.log2_self_le pos.ne'
  calc
    (2 : ℚ) ^ ((M.log2 : Int) + E) = 2 ^ (M.log2 : Int) * 2 ^ E := zpow_add₀ two_ne_zero _ _
    _ ≤ M * 2 ^ E := mul_le_mul_of_nonneg_right power (by positivity)
    _ ≤ v := above

/-- The interval of a double ends below the next power of two. -/
theorem lt_of_roundsTo (hc : Canonical m e) (hv : RoundsTo (v / 2 ^ e) m e) :
    v < 2 ^ (53 + e) := by
  have high := hv.upper
  rw [div_le_iff₀ (by positivity)] at high
  have top : (m : ℚ) + 1 / 2 < 2 ^ 53 := by
    have lt := hc.lt
    have : (m : ℚ) + 1 ≤ 2 ^ 53 := by exact_mod_cast lt
    linarith
  calc
    v ≤ (m + 1 / 2) * 2 ^ e := high
    _ < 2 ^ 53 * 2 ^ e := mul_lt_mul_of_pos_right top (by positivity)
    _ = 2 ^ (53 + e) := (zpow_add₀ two_ne_zero 53 e).symm

/-- A value in the interval of a double does not have a higher exponent than the double. -/
theorem exponentFor_le (hc : Canonical m e) (h : Holds (.ofMantissaAndAccuracy M acc) (v / 2 ^ E))
    (hE : E ≤ exponentFor M E) (hv : RoundsTo (v / 2 ^ e) m e) : exponentFor M E ≤ e := by
  have := hc.le
  rw [exponentFor_eq] at hE ⊢
  rcases Nat.eq_zero_or_pos M with rfl | pos
  · simp only [Nat.log2_zero, Nat.cast_zero] at hE ⊢
    omega
  · have := two_zpow_lt_iff.mp ((le_value h pos).trans_lt (lt_of_roundsTo hc hv))
    omega

/-- Only the interval of the least full mantissa reaches below it. -/
theorem eq_least_of_lt {x : ℚ} (full : 2 ^ 52 ≤ m) (hx : RoundsTo x m e) (lt : x < 2 ^ 52) :
    m = 2 ^ 52 := by
  by_contra other
  have above : (2 : ℚ) ^ 52 + 1 ≤ m := by
    have : 2 ^ 52 + 1 ≤ m := by omega
    exact_mod_cast this
  have low := hx.lower
  have := reachDown_le m e
  linarith

theorem least_sub_le {x : ℚ} (hx : RoundsTo x (2 ^ 52) e) (inner : -1074 < e) :
    (2 : ℚ) ^ 52 - 1 / 4 ≤ x := by
  have quarter : reachDown (2 ^ 52) e = 1 / 4 := if_pos ⟨rfl, inner⟩
  have low := hx.lower
  rw [quarter] at low
  push_cast at low
  exact low

/-- It has the same exponent, unless it lies below a double with the least mantissa. -/
theorem exponentFor_eq_or (hc : Canonical m e)
    (h : Holds (.ofMantissaAndAccuracy M acc) (v / 2 ^ E)) (hE : E ≤ exponentFor M E)
    (hv : RoundsTo (v / 2 ^ e) m e) :
    exponentFor M E = e ∨
      exponentFor M E = e - 1 ∧ m = 2 ^ 52 ∧ (2 : ℚ) ^ 52 - 1 / 4 ≤ v / 2 ^ e ∧
        v / 2 ^ e < 2 ^ 52 := by
  have high := exponentFor_le hc h hE hv
  have least : -1074 ≤ exponentFor M E := by
    rw [exponentFor_eq]
    omega
  have scale : ∀ i : Int, (2 : ℚ) ^ i ≤ v / 2 ^ e → i + e < M.log2 + 1 + E := by
    intro i hi
    rw [le_div_iff₀ (by positivity), ← zpow_add₀ two_ne_zero] at hi
    exact two_zpow_lt_iff.mp (hi.trans_lt (value_lt h))
  rcases hc.full with full | rfl
  · by_cases le : (2 : ℚ) ^ 52 ≤ v / 2 ^ e
    · have := scale 52 (by exact_mod_cast le)
      rw [exponentFor_eq] at high least ⊢
      omega
    · rw [not_le] at le
      obtain rfl := eq_least_of_lt full hv le
      by_cases bottom : e = -1074
      · omega
      · have low := least_sub_le hv (lt_of_le_of_ne hc.le (Ne.symm bottom))
        -- a quarter of a place below, the value is still more than half of the double
        have := scale 51 (by norm_num at low ⊢; linarith)
        rw [exponentFor_eq] at high least ⊢
        by_cases same : max ((M.log2 : Int) + E - 52) (-1074) = e
        · exact .inl same
        · exact .inr ⟨by omega, rfl, low, le⟩
  · exact .inl (le_antisymm high least)

/-- What lies in the interval of a double is rounded to it. -/
theorem roundWithAccuracy_eq (hc : Canonical m e)
    (h : Holds (.ofMantissaAndAccuracy M acc) (v / 2 ^ E)) (hE : E ≤ exponentFor M E)
    (hv : RoundsTo (v / 2 ^ e) m e) (s : Sign) :
    roundWithAccuracy Format.binary64 s M E acc = .finite s m e hc.pos := by
  have cut := holds_shifted h hE
  have first := shiftToTargetExponent_eq M E acc hE
  rcases exponentFor_eq_or hc h hE hv with same | ⟨lower, rfl, low, high⟩
  · rw [same] at cut first
    have nearest : NearestTo (v / 2 ^ e) m := by
      have low := hv.lower
      have := reachDown_le m e
      exact ⟨by linarith, hv.upper, hv.inside⟩
    have rounded := cut.roundedMantissa nearest
    have second := shiftToTargetExponent_eq m e .exact hc.exponentFor_eq.ge
    rw [hc.exponentFor_eq, sub_self] at second
    unfold roundWithAccuracy
    simp only [first, rounded, second]
    exact dif_neg hc.pos.ne'
  · -- the double below is nearer, so the mantissa is rounded up to one bit more
    have cut' : Holds (ExtendedMantissa.ofMantissaAndAccuracy M acc >>> (e - 1 - E).toNat)
        (2 * (v / 2 ^ e)) := by
      rw [lower, zpow_sub_one₀ two_ne_zero] at cut
      convert cut using 1
      field_simp
    have nearest : NearestTo (2 * (v / 2 ^ e)) (2 ^ 53) := by
      refine ⟨?_, ?_, fun odd => by norm_num at odd⟩
      · push_cast
        linarith
      · push_cast
        linarith
    have rounded := cut'.roundedMantissa nearest
    have exponent : exponentFor (2 ^ 53) (e - 1) = e := by
      have := hc.le
      rw [exponentFor_eq, Nat.log2_two_pow]
      push_cast
      omega
    have second := shiftToTargetExponent_eq (2 ^ 53) (e - 1) .exact (by omega)
    rw [exponent, show (e - (e - 1)).toNat = 1 by omega] at second
    rw [lower] at first
    unfold roundWithAccuracy
    simp only [first, rounded, second]
    rfl

end Result

end Reckoner
