import Mathlib
import Reckoner.Number.Layout
import Reckoner.Number.Numeral

/-!
# Digits

What a run of digits stands for, and what a numeral made of such runs stands for.
-/

namespace Reckoner

variable {ds fs ex : List Char}

/-! ## Runs of digits -/

theorem digitsValue_eq (ds : List Char) : digitsValue ds = Nat.ofDigitChars 10 ds 0 :=
  rfl

theorem digitsValue_append (ds fs : List Char) :
    digitsValue (ds ++ fs) = 10 ^ fs.length * digitsValue ds + digitsValue fs := by
  rw [digitsValue_eq, Nat.ofDigitChars_append, Nat.ofDigitChars_eq_ofDigitChars_zero]
  rfl

theorem digitsValue_zeros (k : Nat) : digitsValue (List.replicate k '0') = 0 := by
  rw [digitsValue_eq, Nat.ofDigitChars_replicate_zero, Nat.mul_zero]

theorem digitsValue_append_zeros (ds : List Char) (k : Nat) :
    digitsValue (ds ++ List.replicate k '0') = 10 ^ k * digitsValue ds := by
  rw [digitsValue_append, digitsValue_zeros, List.length_replicate, Nat.add_zero]

theorem digitsValue_zeros_append (k : Nat) (ds : List Char) :
    digitsValue (List.replicate k '0' ++ ds) = digitsValue ds := by
  rw [digitsValue_append, digitsValue_zeros, Nat.mul_zero, Nat.zero_add]

theorem digitsValue_toDigits (n : Nat) : digitsValue (Nat.toDigits 10 n) = n := by
  rw [digitsValue_eq, Nat.ofDigitChars_ten_toDigits]

theorem isDigit_toDigits {n : Nat} : ∀ c ∈ Nat.toDigits 10 n, c.isDigit = true := fun _ =>
  Nat.isDigit_of_mem_toDigits (by decide) (by decide)

theorem isDigit_zeros (k : Nat) : ∀ c ∈ List.replicate k '0', c.isDigit = true := by
  intro c hc
  rw [List.eq_of_mem_replicate hc]
  rfl

/-! ## Digits without the zeros at the end -/

namespace Layout

/-- The digits of a number are the significant ones, then zeros. -/
theorem exists_zeros {n : Nat} (pos : 0 < n) :
    ∃ z, Nat.toDigits 10 n = significant n ++ List.replicate z '0' := by
  refine ⟨((Nat.toDigits 10 n).reverse.takeWhile (· = '0')).length, ?_⟩
  have zeros : (Nat.toDigits 10 n).reverse.takeWhile (· = '0') =
      List.replicate ((Nat.toDigits 10 n).reverse.takeWhile (· = '0')).length '0' := by
    refine List.eq_replicate_iff.mpr ⟨rfl, fun c hc => ?_⟩
    have := List.mem_takeWhile_imp hc
    exact of_decide_eq_true this
  have parts := List.takeWhile_append_dropWhile (p := (· = '0')) (l := (Nat.toDigits 10 n).reverse)
  have reversed := congrArg List.reverse parts
  rw [List.reverse_append, List.reverse_reverse, zeros, List.reverse_replicate] at reversed
  rw [significant, if_neg pos.ne', reversed]

theorem isDigit_significant {n : Nat} (pos : 0 < n) : ∀ c ∈ significant n, c.isDigit = true := by
  obtain ⟨z, parts⟩ := exists_zeros pos
  intro c hc
  refine isDigit_toDigits (n := n) c ?_
  rw [parts]
  exact List.mem_append_left _ hc

theorem significant_ne_nil {n : Nat} (pos : 0 < n) : significant n ≠ [] := by
  obtain ⟨z, parts⟩ := exists_zeros pos
  intro none
  have value := digitsValue_toDigits n
  rw [parts, none, List.nil_append, digitsValue_zeros] at value
  omega

end Layout

/-! ## Numerals -/

theorem takeWhile_digits (hd : ∀ c ∈ ds, c.isDigit = true)
    (hx : ∀ c ∈ ex.head?, c.isDigit = false) : (ds ++ ex).takeWhile Char.isDigit = ds := by
  rw [List.takeWhile_append_of_pos hd]
  cases ex with
  | nil => rw [List.takeWhile_nil, List.append_nil]
  | cons c ex =>
    have := hx c rfl
    rw [List.takeWhile_cons_of_neg (by rw [this]; exact Bool.false_ne_true), List.append_nil]

theorem dropWhile_digits (hd : ∀ c ∈ ds, c.isDigit = true)
    (hx : ∀ c ∈ ex.head?, c.isDigit = false) : (ds ++ ex).dropWhile Char.isDigit = ex := by
  rw [List.dropWhile_append_of_pos hd]
  cases ex with
  | nil => rfl
  | cons c ex =>
    have := hx c rfl
    rw [List.dropWhile_cons_of_neg (by rw [this]; exact Bool.false_ne_true)]

theorem numeralValue_whole (hd : ∀ c ∈ ds, c.isDigit = true)
    (hx : ∀ c ∈ ex.head?, c.isDigit = false ∧ c ≠ '.') :
    numeralValue (ds ++ ex) = nearestDouble (digitsValue ds) (exponentValue ex) := by
  have stops : ∀ c ∈ ex.head?, c.isDigit = false := fun c hc => (hx c hc).1
  unfold numeralValue
  rw [takeWhile_digits hd stops, dropWhile_digits hd stops]
  cases ex with
  | nil => simp
  | cons c ex =>
    have := (hx c rfl).2
    simp [this]

theorem numeralValue_point (hd : ∀ c ∈ ds, c.isDigit = true) (hf : ∀ c ∈ fs, c.isDigit = true)
    (hx : ∀ c ∈ ex.head?, c.isDigit = false) :
    numeralValue (ds ++ '.' :: (fs ++ ex)) =
      nearestDouble (digitsValue (ds ++ fs)) (exponentValue ex - fs.length) := by
  have stops : ∀ c ∈ ('.' :: (fs ++ ex)).head?, c.isDigit = false := by
    rintro c ⟨⟩
    rfl
  unfold numeralValue
  rw [takeWhile_digits hd stops, dropWhile_digits hd stops]
  simp only [takeWhile_digits hf hx, dropWhile_digits hf hx]

theorem exponentValue_minus (ds : List Char) :
    exponentValue ('e' :: '-' :: ds) = -(digitsValue ds : Int) :=
  rfl

theorem exponentValue_digits (hd : ∀ c ∈ ds, c.isDigit = true) :
    exponentValue ('e' :: ds) = digitsValue ds := by
  cases ds with
  | nil => rfl
  | cons c ds =>
    have digit := hd c List.mem_cons_self
    unfold exponentValue
    split
    · next same =>
      obtain ⟨-, rfl, -⟩ : 'e' = 'e' ∧ c = '-' ∧ _ := by simpa using same
      cases digit
    · next same =>
      obtain ⟨-, rfl, -⟩ : 'e' = 'e' ∧ c = '+' ∧ _ := by simpa using same
      cases digit
    · next same =>
      obtain rfl := (List.cons.inj same).2
      rfl
    · next other => exact absurd rfl (other (c :: ds))

end Reckoner
