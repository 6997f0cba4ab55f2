import Reckoner.Number.Decimal
import Reckoner.Proofs.Number.Rounding

/-!
# Decimals that single out a double

A decimal with a given number of digits lies on a grid of one power of ten. `separating?` looks at
the two points of the grid around a double and takes one that lies in the double's interval. With 17
digits the grid is finer than the interval is wide, so one of the two does, and `shortest` always
gives a decimal in the interval.
-/

namespace Reckoner.Decimal

/-! ## Sizes -/

theorem lt_digitCount (n : Nat) : n < 10 ^ digitCount n :=
  (Nat.length_toDigits_le_iff (by norm_num) Nat.length_toDigits_pos).mp le_rfl

theorem digitCount_le {n : Nat} (pos : 0 < n) : 10 ^ (digitCount n - 1) ≤ n := by
  rcases Nat.eq_zero_or_pos (digitCount n - 1) with zero | positive
  · rw [zero]
    exact pos
  · by_contra less
    have short := (Nat.length_toDigits_le_iff (b := 10) (by norm_num) positive).mpr (not_le.mp less)
    have : digitCount n ≤ digitCount n - 1 := short
    omega

theorem ten_zpow_eq (k : Int) : (10 : ℚ) ^ k = 10 ^ k.toNat / 10 ^ (-k).toNat := by
  rw [← zpow_natCast, ← zpow_natCast, ← zpow_sub₀ (by norm_num)]
  congr 1
  omega

theorem two_zpow_eq (k : Int) : (2 : ℚ) ^ k = 2 ^ k.toNat / 2 ^ (-k).toNat := by
  rw [← zpow_natCast, ← zpow_natCast, ← zpow_sub₀ (by norm_num)]
  congr 1
  omega

theorem scaled_lt_iff (num : Nat) {den : Nat} (hd : 0 < den) (k : Int) :
    (scaled num den k).1 < (scaled num den k).2 ↔ (num : ℚ) / den < 10 ^ k := by
  have pos : (0 : ℚ) < den := by exact_mod_cast hd
  rw [ten_zpow_eq, div_lt_div_iff₀ pos (by positivity), mul_comm (10 ^ k.toNat : ℚ)]
  unfold scaled
  exact_mod_cast Iff.rfl

/-- A number is at least the power of ten below its magnitude. -/
theorem magnitude_le {num den : Nat} (hn : 0 < num) (hd : 0 < den) :
    (10 : ℚ) ^ (magnitude num den - 1) ≤ num / den := by
  have pos : (0 : ℚ) < den := by exact_mod_cast hd
  have cut := scaled_lt_iff num hd ((digitCount num : Int) - digitCount den)
  have cases : magnitude num den = if (scaled num den ((digitCount num : Int) - digitCount den)).1 <
      (scaled num den ((digitCount num : Int) - digitCount den)).2 then
        (digitCount num : Int) - digitCount den
      else (digitCount num : Int) - digitCount den + 1 := rfl
  rw [cases]
  split
  · -- the number of digits alone bounds the quotient from below
    have positive : 0 < digitCount num := Nat.length_toDigits_pos
    have low : (10 : ℚ) ^ ((digitCount num : Int) - 1) ≤ num := by
      rw [show (digitCount num : Int) - 1 = (digitCount num - 1 : Nat) by omega, zpow_natCast]
      exact_mod_cast digitCount_le hn
    have high : (den : ℚ) ≤ 10 ^ (digitCount den : Int) := by
      rw [zpow_natCast]
      exact_mod_cast (lt_digitCount den).le
    rw [le_div_iff₀ pos]
    calc
      (10 : ℚ) ^ ((digitCount num : Int) - digitCount den - 1) * den ≤
          10 ^ ((digitCount num : Int) - digitCount den - 1) * 10 ^ (digitCount den : Int) :=
        mul_le_mul_of_nonneg_left high (by positivity)
      _ = 10 ^ ((digitCount num : Int) - 1) := by
        rw [← zpow_add₀ (by norm_num)]
        congr 1
        ring
      _ ≤ num := low
  · next more =>
    rw [add_sub_cancel_right]
    exact not_lt.mp (mt cut.mpr more)

/-! ## The grid around a double -/

section Grid

variable (digits m : Nat) (e : Int)

/-- The place of the last digit. -/
def gridUnit : Int :=
  magnitude (4 * m * Nat.pow 2 (e - 2).toNat) (Nat.pow 2 (-(e - 2)).toNat) - digits

/-- With `gridDown`, a unit of the grid as a fraction, in quarters of the last place of the
mantissa. -/
def gridUp : Nat :=
  Nat.pow 10 (gridUnit digits m e).toNat * Nat.pow 2 (-(e - 2)).toNat

/-- A quarter of the last place of the mantissa, as `gridUp` has a unit of the grid. -/
def gridDown : Nat :=
  Nat.pow 10 (-gridUnit digits m e).toNat * Nat.pow 2 (e - 2).toNat

/-- How many quarters the interval reaches down. -/
def below : Nat :=
  if m = Binary.fractionPlace ∧ Binary.minExponent < e then 1 else 2

/-- The point `c` of the grid lies in the interval of the double. -/
abbrev Inside (c : Nat) : Prop :=
  if m % 2 = 0 then
    (4 * m - below m e) * gridDown digits m e ≤ c * gridUp digits m e ∧
      c * gridUp digits m e ≤ (4 * m + 2) * gridDown digits m e
  else
    (4 * m - below m e) * gridDown digits m e < c * gridUp digits m e ∧
      c * gridUp digits m e < (4 * m + 2) * gridDown digits m e

/-- The point of the grid at or just below the double. -/
def gridLow : Nat :=
  4 * m * gridDown digits m e / gridUp digits m e

theorem separating?_eq : separating? digits m e =
    if Inside digits m e (gridLow digits m e) then
      if Inside digits m e (gridLow digits m e + 1) then
        some ⟨roundHalfEven (4 * m * gridDown digits m e) (gridUp digits m e), gridUnit digits m e⟩
      else some ⟨gridLow digits m e, gridUnit digits m e⟩
    else if Inside digits m e (gridLow digits m e + 1) then
      some ⟨gridLow digits m e + 1, gridUnit digits m e⟩
    else none :=
  rfl

theorem roundHalfEven_cases (num den : Nat) :
    roundHalfEven num den = num / den ∨ roundHalfEven num den = num / den + 1 := by
  unfold roundHalfEven
  dsimp only
  split
  · exact .inl rfl
  · exact .inr rfl
  · omega

/-- What is found lies in the interval. -/
theorem inside_of_separating? {d : Decimal} (h : separating? digits m e = some d) :
    Inside digits m e d.units ∧ d.exponent = gridUnit digits m e := by
  rw [separating?_eq] at h
  split at h
  · next low =>
    split at h
    · next high =>
      cases h
      rcases roundHalfEven_cases (4 * m * gridDown digits m e) (gridUp digits m e) with same | next
      · rw [same]
        exact ⟨low, rfl⟩
      · rw [next]
        exact ⟨high, rfl⟩
    · cases h
      exact ⟨low, rfl⟩
  · split at h
    · next high =>
      cases h
      exact ⟨high, rfl⟩
    · cases h

theorem gridDown_pos : 0 < gridDown digits m e :=
  Nat.mul_pos (Nat.pow_pos (by norm_num)) (Nat.pow_pos (by norm_num))

/-- A unit of the grid in quarters of the last place of the mantissa. -/
theorem gridUp_eq : (gridUp digits m e : ℚ) =
    10 ^ gridUnit digits m e / 2 ^ (e - 2) * gridDown digits m e := by
  rw [ten_zpow_eq, two_zpow_eq (e - 2), gridUp, gridDown, Nat.pow_eq, Nat.pow_eq, Nat.pow_eq,
    Nat.pow_eq]
  push_cast
  field_simp

end Grid

section Interval

variable {digits m : Nat} {e : Int}

theorem below_le (hc : Canonical m e) : below m e ≤ 4 * m := by
  have := hc.pos
  unfold below
  split <;> omega

theorem below_eq (m : Nat) (e : Int) : (below m e : ℚ) = 4 * reachDown m e := by
  have same : (m = Binary.fractionPlace ∧ Binary.minExponent < e) ↔ (m = 2 ^ 52 ∧ -1074 < e) :=
    Iff.rfl
  unfold below reachDown
  by_cases boundary : m = 2 ^ 52 ∧ -1074 < e
  · rw [if_pos (same.mpr boundary), if_pos boundary]
    norm_num
  · rw [if_neg (mt same.mp boundary), if_neg boundary]
    norm_num

/-- A point of the grid, in places of the mantissa. -/
theorem point_eq (c : Nat) : ((c * gridUp digits m e : Nat) : ℚ) =
    c * 10 ^ gridUnit digits m e / 2 ^ e * (4 * gridDown digits m e) := by
  push_cast
  rw [gridUp_eq, zpow_sub₀ two_ne_zero]
  field_simp
  ring

/-- The lower end of the interval, in places of the mantissa. -/
theorem lowest_eq (hc : Canonical m e) : (((4 * m - below m e) * gridDown digits m e : Nat) : ℚ) =
    (m - reachDown m e) * (4 * gridDown digits m e) := by
  push_cast [Nat.cast_sub (below_le hc)]
  rw [below_eq]
  ring

/-- The upper end of the interval, in places of the mantissa. -/
theorem highest_eq : (((4 * m + 2) * gridDown digits m e : Nat) : ℚ) =
    (m + 1 / 2) * (4 * gridDown digits m e) := by
  push_cast
  ring

theorem roundsTo_of_inside (hc : Canonical m e) {c : Nat} (h : Inside digits m e c) :
    RoundsTo (c * 10 ^ gridUnit digits m e / 2 ^ e) m e := by
  have pos : (0 : ℚ) < gridDown digits m e := by exact_mod_cast gridDown_pos digits m e
  have scale : (0 : ℚ) < 4 * gridDown digits m e := by linarith
  have point : ((c * gridUp digits m e : Nat) : ℚ) = _ := point_eq c
  generalize (c : ℚ) * 10 ^ gridUnit digits m e / 2 ^ e = x at point ⊢
  by_cases even : m % 2 = 0
  · rw [Inside, if_pos even] at h
    obtain ⟨h₁, h₂⟩ := h
    have h₁ : (m - reachDown m e) * (4 * gridDown digits m e) ≤ x * (4 * gridDown digits m e) := by
      rw [← lowest_eq hc, ← point]
      exact_mod_cast h₁
    have h₂ : x * (4 * gridDown digits m e) ≤ (m + 1 / 2) * (4 * gridDown digits m e) := by
      rw [← highest_eq, ← point]
      exact_mod_cast h₂
    exact ⟨le_of_mul_le_mul_right h₁ scale, le_of_mul_le_mul_right h₂ scale, fun odd => by omega⟩
  · rw [Inside, if_neg even] at h
    obtain ⟨h₁, h₂⟩ := h
    have h₁ : (m - reachDown m e) * (4 * gridDown digits m e) < x * (4 * gridDown digits m e) := by
      rw [← lowest_eq hc, ← point]
      exact_mod_cast h₁
    have h₂ : x * (4 * gridDown digits m e) < (m + 1 / 2) * (4 * gridDown digits m e) := by
      rw [← highest_eq, ← point]
      exact_mod_cast h₂
    have h₁ := lt_of_mul_lt_mul_right h₁ scale.le
    have h₂ := lt_of_mul_lt_mul_right h₂ scale.le
    have half : reachDown m e = 1 / 2 := by
      refine if_neg fun boundary => even ?_
      rw [boundary.1]
      norm_num
    exact ⟨h₁.le, h₂.le, fun _ => ⟨by rwa [half] at h₁, h₂⟩⟩

/-- With 17 digits a unit of the grid is at most the last of 16 digits of the double. -/
theorem gridUnit_le (hc : Canonical m e) :
    (10 : ℚ) ^ gridUnit maxDigits m e ≤ 4 * m * 2 ^ (e - 2) / 10 ^ 16 := by
  have value : ((4 * m * Nat.pow 2 (e - 2).toNat : Nat) : ℚ) / (Nat.pow 2 (-(e - 2)).toNat : Nat) =
      4 * m * 2 ^ (e - 2) := by
    rw [two_zpow_eq (e - 2), Nat.pow_eq, Nat.pow_eq]
    push_cast
    ring
  have num_pos : 0 < 4 * m * Nat.pow 2 (e - 2).toNat :=
    Nat.mul_pos (Nat.mul_pos (by norm_num) hc.pos) (Nat.pow_pos two_pos)
  have den_pos : 0 < Nat.pow 2 (-(e - 2)).toNat := Nat.pow_pos two_pos
  have size := magnitude_le num_pos den_pos
  rw [value] at size
  rw [le_div_iff₀ (by norm_num), ← zpow_natCast, ← zpow_add₀ (by norm_num)]
  refine le_of_eq_of_le ?_ size
  congr 1
  unfold gridUnit maxDigits
  push_cast
  ring

/-- The last of 16 digits is less than the width of the interval, in quarters of the last place. -/
theorem lt_width (hc : Canonical m e) : (4 : ℚ) * m / 10 ^ 16 < 2 + below m e := by
  rw [div_lt_iff₀ (by norm_num)]
  have lt := hc.lt
  unfold below
  split
  · next boundary =>
    have : m = 2 ^ 52 := boundary.1
    rw [this]
    norm_num
  · have : (m : ℚ) < 2 ^ 53 := by exact_mod_cast lt
    norm_num1 at this ⊢
    linarith

/-- With 17 digits the grid is finer than the interval is wide. -/
theorem gridUp_lt (hc : Canonical m e) :
    gridUp maxDigits m e < (2 + below m e) * gridDown maxDigits m e := by
  have pos : (0 : ℚ) < gridDown maxDigits m e := by exact_mod_cast gridDown_pos maxDigits m e
  have step : (10 : ℚ) ^ gridUnit maxDigits m e / 2 ^ (e - 2) ≤ 4 * m / 10 ^ 16 := by
    rw [div_le_iff₀ (by positivity)]
    calc
      (10 : ℚ) ^ gridUnit maxDigits m e ≤ 4 * m * 2 ^ (e - 2) / 10 ^ 16 := gridUnit_le hc
      _ = 4 * m / 10 ^ 16 * 2 ^ (e - 2) := by ring
  have result : (gridUp maxDigits m e : ℚ) < (2 + below m e) * gridDown maxDigits m e := by
    rw [gridUp_eq]
    exact mul_lt_mul_of_pos_right (step.trans_lt (lt_width hc)) pos
  exact_mod_cast result

theorem exists_separating (hc : Canonical m e) : separating? maxDigits m e ≠ none := by
  intro none
  have narrow := gridUp_lt hc
  have down := gridDown_pos maxDigits m e
  have le := below_le hc
  have up : 0 < gridUp maxDigits m e := by
    unfold gridUp
    exact Nat.mul_pos (Nat.pow_pos (by norm_num)) (Nat.pow_pos (by norm_num))
  have floor := Nat.div_mul_le_self (4 * m * gridDown maxDigits m e) (gridUp maxDigits m e)
  have ceil := Nat.lt_mul_div_succ (4 * m * gridDown maxDigits m e) up
  have low : (4 * m - below m e) * gridDown maxDigits m e + below m e * gridDown maxDigits m e =
      4 * m * gridDown maxDigits m e := by
    rw [← Nat.add_mul, Nat.sub_add_cancel le]
  -- neither neighbour lies in the interval, so the interval is narrower than the grid
  have outside : ¬ Inside maxDigits m e (gridLow maxDigits m e) ∧
      ¬ Inside maxDigits m e (gridLow maxDigits m e + 1) := by
    rw [separating?_eq] at none
    split at none
    · split at none <;> cases none
    · next first =>
      split at none
      · cases none
      · next second => exact ⟨first, second⟩
  unfold Inside gridLow at outside
  rw [mul_comm (gridUp maxDigits m e), Nat.add_mul, one_mul] at ceil
  simp only [Nat.add_mul, one_mul] at outside narrow
  generalize gridDown maxDigits m e = D at *
  generalize gridUp maxDigits m e = U at *
  generalize 4 * m * D / U * U = L at *
  generalize 4 * m * D = V at *
  generalize (4 * m - below m e) * D = A at *
  generalize below m e * D = B at *
  split at outside <;> omega

/-- The shortest decimal of a double lies in its interval. -/
theorem roundsTo_shortest (hc : Canonical m e) :
    RoundsTo ((shortest m e).units * 10 ^ (shortest m e).exponent / 2 ^ e) m e := by
  obtain ⟨d, found⟩ : ∃ d, ((List.range maxDigits).findSome? fun n => separating? (n + 1) m e) =
      some d := by
    apply Option.ne_none_iff_exists'.mp
    intro none
    have last := List.findSome?_eq_none_iff.mp none 16 (List.mem_range.mpr (by decide))
    exact exists_separating hc last
  have result : shortest m e = d := by
    unfold shortest
    rw [found, Option.getD_some]
  obtain ⟨n, -, separates⟩ := List.exists_of_findSome?_eq_some found
  obtain ⟨inside, exponent⟩ := inside_of_separating? (n + 1) m e separates
  rw [result, exponent]
  exact roundsTo_of_inside hc inside

end Interval

end Reckoner.Decimal
