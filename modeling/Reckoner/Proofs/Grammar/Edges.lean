import Reckoner.Proofs.Grammar.Exactness
import Reckoner.Proofs.Text.Blank

/-!
# The edges of a source

An expression starts and ends with a character that is not blank, and does not start with a colon.
So trimming a source takes away the spaces around its expression and nothing else, and leaves a
source of the same tree.
-/

namespace Reckoner.Grammar

variable {s text : List Char} {a e : Expr} {c : Char}

theorem isBlank_blanks (i : Nat) : ∀ c ∈ blanks i, isBlank c = true := by
  intro c mem
  rw [(List.mem_replicate.mp mem).2]
  decide

theorem last_of_forall (nonempty : s ≠ []) (solid : ∀ c ∈ s, isBlank c = false) :
    ∃ c, s.getLast? = some c ∧ isBlank c = false :=
  ⟨s.getLast nonempty, List.getLast?_eq_some_getLast nonempty,
    solid _ (List.getLast_mem nonempty)⟩

theorem last_close (front : List Char) {c : Char} (close : c = ')' ∨ c = ']') :
    ∃ d, (front ++ [c]).getLast? = some d ∧ isBlank d = false := by
  refine ⟨c, List.getLast?_concat, ?_⟩
  rcases close with rfl | rfl <;> decide

/-! ## Numbers -/

theorem isBlank_of_isDigit (h : c.isDigit = true) : isBlank c = false := by
  cases blank : isBlank c with
  | false => rfl
  | true =>
    have none : ∀ n ∈ blankCodes, (Char.ofNat n).isDigit = false := by decide
    have other := none _ (mem_blankCodes blank)
    rw [Char.ofNat_toNat, h] at other
    cases other

theorem IsDigits.last (h : IsDigits s) : ∃ c, s.getLast? = some c ∧ isBlank c = false :=
  last_of_forall h.1 fun c mem => isBlank_of_isDigit (h.2 c mem)

theorem Mantissa.last (h : Mantissa s) : ∃ c, s.getLast? = some c ∧ isBlank c = false := by
  cases h with
  | whole hds => exact hds.last
  | @point ds fs _ hfs => exact last_append ds (last_append ['.'] hfs.last)
  | fraction hfs => exact last_append ['.'] hfs.last

theorem Number.last {x : Float} (h : Number s x) :
    ∃ c, s.getLast? = some c ∧ isBlank c = false := by
  cases h with
  | @mk sg m ex _ _ _ hm hex =>
    refine last_append sg ?_
    cases hex with
    | absent =>
      rw [List.append_nil]
      exact hm.last
    | @present mark sg ds _ _ _ hds => exact last_append m (last_append (mark :: sg) hds.last)

theorem Mantissa.has_digit (h : Mantissa s) : ∃ c ∈ s, c.isDigit = true := by
  have first {ds : List Char} (hds : IsDigits ds) : ∃ c ∈ ds, c.isDigit = true := by
    obtain ⟨c, mem⟩ := List.exists_mem_of_ne_nil ds hds.1
    exact ⟨c, mem, hds.2 c mem⟩
  cases h with
  | whole hds => exact first hds
  | point hds _ =>
    obtain ⟨c, mem, digit⟩ := first hds
    exact ⟨c, List.mem_append_left _ mem, digit⟩
  | fraction hfs =>
    obtain ⟨c, mem, digit⟩ := first hfs
    exact ⟨c, List.mem_cons_of_mem _ mem, digit⟩

/-! ## Names -/

variable [Alphabet]

theorem isBlank_of_isNameChar (h : isNameChar c = true) : isBlank c = false := by
  unfold isNameChar at h
  rw [Bool.or_assoc, Bool.or_eq_true, Bool.or_eq_true] at h
  rcases h with letter | digit | underscore
  · cases blank : isBlank c with
    | false => rfl
    | true =>
      rw [Alphabet.isLetter_of_isBlank blank] at letter
      cases letter
  · exact isBlank_of_isDigit digit
  · rw [of_decide_eq_true underscore]
    decide

theorem IsName.last (h : IsName s) : ∃ c, s.getLast? = some c ∧ isBlank c = false :=
  last_of_forall h.1 fun c mem => isBlank_of_isNameChar (h.2 c mem)

theorem IsName.solid (h : IsName s) : Solid s := by
  refine ⟨?_, h.last⟩
  obtain ⟨c, front, kind⟩ := h.head
  rw [List.append_nil] at front
  exact ⟨c, front, isBlank_of_isNameChar kind⟩

/-! ## Expressions -/

/-- An expression does not start with a blank or a colon. -/
theorem Expression.edge (h : Expression s e) :
    ∃ c, s.head? = some c ∧ isBlank c = false ∧ c ≠ ':' := by
  obtain ⟨c, front, kind⟩ := h.head
  refine ⟨c, front, ?_⟩
  rcases kind with name | mark
  · refine ⟨isBlank_of_isNameChar name, ?_⟩
    rintro rfl
    rw [isNameChar_reserved (by decide)] at name
    cases name
  · simp only [List.mem_cons, List.not_mem_nil, or_false] at mark
    rcases mark with rfl | rfl | rfl | rfl | rfl <;> decide

/-- A character that only an operand has. -/
def IsOperandMark (c : Char) : Bool :=
  c.isDigit || c = '#' || c = '(' || c = '['

theorem Operand.has_mark (h : Operand s a) : ∃ c ∈ s, IsOperandMark c = true := by
  cases h with
  | group => exact ⟨'(', by simp, by decide⟩
  | number hx =>
    cases hx with
    | mk _ hm _ =>
      obtain ⟨c, mem, digit⟩ := hm.has_digit
      refine ⟨c, by simp [mem], ?_⟩
      unfold IsOperandMark
      rw [digit, Bool.true_or, Bool.true_or, Bool.true_or]
  | var => exact ⟨'#', by simp, by decide⟩
  | reference => exact ⟨'[', by simp, by decide⟩
  | call => exact ⟨'(', by simp, by decide⟩

/-- An expression has a digit, a `#` or an opening bracket. -/
theorem Expression.has_mark (h : Expression s e) : ∃ c ∈ s, IsOperandMark c = true := by
  cases h with
  | operand ha => exact ha.has_mark
  | operation _ _ _ ha _ =>
    obtain ⟨c, mem, mark⟩ := ha.has_mark
    exact ⟨c, List.mem_append_left _ mem, mark⟩

theorem Operand.last (h : Operand s a) : ∃ c, s.getLast? = some c ∧ isBlank c = false := by
  cases h with
  | @group s _ i j _ => simpa using last_close ('(' :: (blanks i ++ (s ++ blanks j))) (.inl rfl)
  | number hx => exact hx.last
  | var hs => exact last_append ['#'] hs.last
  | @reference s _ i j _ =>
    simpa using last_close ('v' :: '[' :: (blanks i ++ (s ++ blanks j))) (.inr rfl)
  | @call f s _ i j _ _ =>
    simpa using last_close (f ++ '(' :: (blanks i ++ (s ++ blanks j))) (.inl rfl)

theorem Expression.last : ∀ {s : List Char} {e : Expr}, Expression s e →
    ∃ c, s.getLast? = some c ∧ isBlank c = false
  | _, _, .operand ha => ha.last
  | _, _, @Expression.operation _ s _ _ _ i j o _ he =>
    last_append s (last_append (blanks i) (last_append o.symbol.toList
      (last_append (blanks j) he.last)))

/-! ## Trimming -/

theorem Expression.solid (h : Expression s e) : Solid s := by
  obtain ⟨c, front, solid, -⟩ := h.edge
  exact ⟨⟨c, front, solid⟩, h.last⟩

theorem Source.space (h : Source text e) : Source (' ' :: text) e := by
  cases h with
  | mk i j derived => exact .mk (i + 1) j derived

/-- Trimming a source leaves its expression. -/
theorem Source.trim (h : Source text e) : Expression (trim text) e := by
  cases h with
  | mk i j derived =>
    rwa [trim_between (isBlank_blanks i) derived.solid (isBlank_blanks j)]

end Reckoner.Grammar
