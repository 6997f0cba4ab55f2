import Reckoner.Proofs.Grammar.Derivation
import Reckoner.Proofs.Number.Digits
import Reckoner.Proofs.Number.Scientific
import Reckoner.Proofs.Number.Shortest

/-!
# Written numbers are numbers of the grammar

`numeralText` writes a double as a whole number, as a decimal in place or with an exponent, or as an
infinity that is too large. Each of these is derived as a number, and its value is the double again,
up to the sign of zero, with the same text.
-/

namespace Reckoner

open Reckoner.Grammar

/-! ## Numbers without sign -/

/-- A text is a number without sign, for whose value a decimal is rounded that equals `v`. -/
def Stands (text : List Char) (v : ℚ) : Prop :=
  ∃ mantissa exponent written n k, text = mantissa ++ exponent ∧ Mantissa mantissa ∧
    Exponent exponent written ∧ numeralValue (mantissa ++ written) = nearestDouble n k ∧
    (n : ℚ) * 10 ^ k = v

variable {ds fs ex written : List Char}

theorem head_written (h : Exponent ex written) :
    ∀ c ∈ written.head?, c.isDigit = false ∧ c ≠ '.' := by
  cases h with
  | absent => exact fun _ none => nomatch none
  | @present mark sign ds negative _ _ _ =>
    cases negative
    · rintro c ⟨⟩
      decide
    · rintro c ⟨⟩
      decide

theorem isDigits_zero : IsDigits ['0'] :=
  ⟨List.cons_ne_nil _ _, isDigit_zeros 1⟩

theorem isDigits_append (hd : IsDigits ds) (hf : ∀ c ∈ fs, c.isDigit = true) :
    IsDigits (ds ++ fs) ∧ IsDigits (fs ++ ds) := by
  refine ⟨⟨fun none => hd.1 (List.append_eq_nil_iff.mp none).1, fun c hc => ?_⟩,
    ⟨fun none => hd.1 (List.append_eq_nil_iff.mp none).2, fun c hc => ?_⟩⟩
  · rcases List.mem_append.mp hc with h | h
    · exact hd.2 c h
    · exact hf c h
  · rcases List.mem_append.mp hc with h | h
    · exact hf c h
    · exact hd.2 c h

theorem stands_whole (hd : IsDigits ds) (he : Exponent ex written) :
    Stands (ds ++ ex) (digitsValue ds * 10 ^ exponentValue written) :=
  ⟨ds, ex, written, _, _, rfl, .whole hd, he, numeralValue_whole hd.2 (head_written he), rfl⟩

theorem stands_point (hd : IsDigits ds) (hf : IsDigits fs) (he : Exponent ex written) :
    Stands ((ds ++ '.' :: fs) ++ ex)
      (digitsValue (ds ++ fs) * 10 ^ (exponentValue written - fs.length)) := by
  refine ⟨ds ++ '.' :: fs, ex, written, _, _, rfl, .point hd hf, he, ?_, rfl⟩
  rw [List.append_assoc, List.cons_append]
  exact numeralValue_point hd.2 hf.2 fun c hc => (head_written he c hc).1

theorem exponentText_toList (x : Int) : ∃ written, Exponent (Layout.exponentText x).toList written ∧
    exponentValue written = x := by
  have digits := (isDigits_append ⟨Nat.toDigits_ne_nil, isDigit_toDigits (n := x.natAbs)⟩
    (isDigit_zeros (2 - (Nat.toDigits 10 x.natAbs).length))).2
  have value := digitsValue_zeros_append (2 - (Nat.toDigits 10 x.natAbs).length)
    (Nat.toDigits 10 x.natAbs)
  rw [digitsValue_toDigits] at value
  unfold Layout.exponentText
  rw [String.toList_ofList, List.cons_append, List.cons_append]
  by_cases minus : x < 0
  · rw [if_pos minus]
    refine ⟨_, .present (.inl rfl) (.minus 0) digits, ?_⟩
    have exponent := exponentValue_minus
      (List.replicate (2 - (Nat.toDigits 10 x.natAbs).length) '0' ++ Nat.toDigits 10 x.natAbs)
    rw [value] at exponent
    exact exponent.trans (by omega)
  · rw [if_neg minus]
    refine ⟨_, .present (.inl rfl) .plus digits, ?_⟩
    have exponent := exponentValue_digits digits.2
    rw [value] at exponent
    exact exponent.trans (by omega)

/-! ## Layouts -/

namespace Layout

variable {d : Decimal}

/-- The value of a decimal by its significant digits and the place of its point. -/
theorem value_significant (pos : 0 < d.units) :
    (d.units : ℚ) * 10 ^ d.exponent = digitsValue (significant d.units) *
      10 ^ (Decimal.digitCount d.units + d.exponent - (significant d.units).length) := by
  obtain ⟨z, parts⟩ := exists_zeros pos
  have units : d.units = 10 ^ z * digitsValue (significant d.units) := by
    rw [← digitsValue_append_zeros, ← parts, digitsValue_toDigits]
  have count : Decimal.digitCount d.units = (significant d.units).length + z := by
    rw [Decimal.digitCount, parts, List.length_append, List.length_replicate]
  have exponent : (Decimal.digitCount d.units : Int) + d.exponent - (significant d.units).length =
      z + d.exponent := by
    rw [count]
    push_cast
    ring
  rw [exponent, zpow_add₀ (by norm_num), zpow_natCast]
  generalize digitsValue (significant d.units) = D at units
  rw [units]
  push_cast
  ring

theorem isDigits_significant (pos : 0 < d.units) : IsDigits (significant d.units) :=
  ⟨significant_ne_nil pos, isDigit_significant pos⟩

/-- The digits with a point after the first one, and an exponent. -/
theorem stands_exponent (hd : IsDigits ds) (x : Int) :
    Stands (ds.take 1 ++ (if (ds.drop 1).isEmpty then [] else '.' :: ds.drop 1) ++
      (exponentText x).toList) (digitsValue ds * 10 ^ (x + 1 - ds.length)) := by
  obtain ⟨written, he, value⟩ := exponentText_toList x
  obtain ⟨c, ds, rfl⟩ := List.exists_cons_of_ne_nil hd.1
  have first : IsDigits [c] :=
    ⟨List.cons_ne_nil c [], fun a ha => hd.2 a (by rw [List.mem_singleton.mp ha]; simp)⟩
  rw [List.take_succ_cons, List.take_zero, List.drop_succ_cons, List.drop_zero]
  cases ds with
  | nil =>
    have whole := stands_whole first he
    rw [value] at whole
    simpa using whole
  | cons f fs =>
    have rest : IsDigits (f :: fs) :=
      ⟨List.cons_ne_nil f fs, fun a ha => hd.2 a (List.mem_cons_of_mem c ha)⟩
    have point := stands_point first rest he
    rw [value] at point
    have exponent : x + 1 - ((c :: f :: fs).length : Int) = x - ((f :: fs).length : Int) := by
      simp only [List.length_cons]
      push_cast
      ring
    rw [exponent]
    exact point

/-- The digits after a point and zeros. -/
theorem stands_zeros (hd : IsDigits ds) {point : Int} (low : point ≤ 0) :
    Stands ('0' :: '.' :: List.replicate (-point).toNat '0' ++ ds)
      (digitsValue ds * 10 ^ (point - ds.length)) := by
  have fraction := (isDigits_append hd (isDigit_zeros (-point).toNat)).2
  have whole := stands_point isDigits_zero fraction .absent
  have value : digitsValue (['0'] ++ (List.replicate (-point).toNat '0' ++ ds)) =
      digitsValue ds :=
    (digitsValue_zeros_append 1 _).trans (digitsValue_zeros_append _ _)
  have exponent : exponentValue [] - (List.replicate (-point).toNat '0' ++ ds).length =
      point - ds.length := by
    rw [List.length_append, List.length_replicate]
    show (0 : Int) - _ = _
    omega
  rw [value, exponent, List.append_nil] at whole
  exact whole

/-- The digits, zeros up to the units, and an empty fraction. -/
theorem stands_padded (hd : IsDigits ds) {point : Int} (high : ¬ point ≤ 0)
    (long : ds.length ≤ point.toNat) :
    Stands (ds ++ List.replicate (point.toNat - ds.length) '0' ++ ['.', '0'])
      (digitsValue ds * 10 ^ (point - ds.length)) := by
  have padded := (isDigits_append hd (isDigit_zeros (point.toNat - ds.length))).1
  have whole := stands_point padded isDigits_zero .absent
  have value : digitsValue (ds ++ List.replicate (point.toNat - ds.length) '0' ++ ['0']) =
      10 ^ (point.toNat - ds.length + 1) * digitsValue ds := by
    rw [List.append_assoc, ← List.replicate_succ', digitsValue_append_zeros]
  have power : (10 : ℚ) ^ (point - ds.length) = 10 ^ (point.toNat - ds.length) := by
    rw [← zpow_natCast]
    congr 1
    omega
  -- the zero of the fraction makes the digits one place longer
  have scale : ((10 ^ (point.toNat - ds.length + 1) * digitsValue ds : Nat) : ℚ) *
      10 ^ (exponentValue [] - (['0'].length : Int)) =
      digitsValue ds * 10 ^ (point - ds.length) := by
    show _ * (10 : ℚ) ^ (-1 : Int) = _
    rw [power, pow_succ]
    push_cast
    norm_num
    ring
  rw [value, scale, List.append_nil] at whole
  exact whole

/-- The digits with a point among them. -/
theorem stands_inner (hd : IsDigits ds) {point : Int} (high : ¬ point ≤ 0)
    (short : ¬ ds.length ≤ point.toNat) :
    Stands (ds.take point.toNat ++ '.' :: ds.drop point.toNat)
      (digitsValue ds * 10 ^ (point - ds.length)) := by
  have front : IsDigits (ds.take point.toNat) := by
    refine ⟨fun none => ?_, fun c hc => hd.2 c (List.mem_of_mem_take hc)⟩
    have := congrArg List.length none
    rw [List.length_take, List.length_nil] at this
    omega
  have back : IsDigits (ds.drop point.toNat) := by
    refine ⟨fun none => ?_, fun c hc => hd.2 c (List.mem_of_mem_drop hc)⟩
    have := congrArg List.length none
    rw [List.length_drop, List.length_nil] at this
    omega
  have whole := stands_point front back .absent
  have exponent : exponentValue [] - (ds.drop point.toNat).length = point - ds.length := by
    rw [List.length_drop]
    show (0 : Int) - _ = _
    omega
  rw [List.take_append_drop, exponent, List.append_nil] at whole
  exact whole

/-- A positive decimal is written as a number with its value. -/
theorem stands_write (pos : 0 < d.units) :
    Stands (full.write d).toList (d.units * 10 ^ d.exponent) := by
  have hd := isDigits_significant pos
  rw [value_significant pos]
  obtain ⟨point, hp⟩ : ∃ point, point = (Decimal.digitCount d.units : Int) + d.exponent := ⟨_, rfl⟩
  unfold write
  rw [if_neg pos.ne', ← hp]
  generalize significant d.units = ds at hd ⊢
  dsimp only
  -- the four layouts, in the order in which `write` tries them
  split
  · have exponent := stands_exponent hd (point - 1)
    rw [sub_add_cancel] at exponent
    rw [String.toList_append, String.toList_ofList]
    exact exponent
  · split
    · next low =>
      rw [String.toList_ofList]
      exact stands_zeros hd low
    · next high =>
      split
      · next long =>
        rw [String.toList_append, String.toList_ofList]
        exact stands_padded hd high long
      · next short =>
        rw [String.toList_ofList]
        exact stands_inner hd high short

end Layout

end Reckoner
