import Reckoner.Diagnosis.Suggestion
import Reckoner.Proofs.Grammar.Viability

/-!
# How brackets nest

The brackets of a text are matched from its start: an opening bracket waits for its partner, and a
closing bracket without one is stray. A derived text leaves everything as it was, whatever is open
around it. So the front of a source has no stray brackets, and there counting the brackets of a kind
tells whether one is left open.
-/

namespace Reckoner.Grammar

/-- The brackets left when those of a text are matched, the last one first: the opening ones that
wait for their partner, and the closing ones that found none. -/
structure Nesting where
  opened : List Char
  stray : List Char
deriving DecidableEq, Repr

namespace Nesting

def brackets : List Char := ['(', ')', '[', ']']

/-- The brackets left after one more character. -/
def step : Nesting → Char → Nesting
  | ⟨opened, stray⟩, '(' => ⟨'(' :: opened, stray⟩
  | ⟨opened, stray⟩, '[' => ⟨'[' :: opened, stray⟩
  | ⟨'(' :: opened, stray⟩, ')' => ⟨opened, stray⟩
  | ⟨'[' :: opened, stray⟩, ']' => ⟨opened, stray⟩
  | ⟨opened, stray⟩, ')' => ⟨opened, ')' :: stray⟩
  | ⟨opened, stray⟩, ']' => ⟨opened, ']' :: stray⟩
  | n, _ => n

/-- An opening bracket and its partner. -/
def Pair (opening closing : Char) : Prop :=
  opening = '(' ∧ closing = ')' ∨ opening = '[' ∧ closing = ']'

/-- A text that leaves all brackets around it as they were. -/
def Level (text : List Char) : Prop :=
  ∀ n : Nesting, text.foldl step n = n

end Nesting

/-- The brackets that a text leaves. -/
def nesting (text : List Char) : Nesting :=
  text.foldl Nesting.step ⟨[], []⟩

namespace Nesting

variable {n : Nesting} {opening closing c : Char} {s t : List Char}

theorem Pair.opening_mem (h : Pair opening closing) : opening ∈ brackets := by
  rcases h with ⟨rfl, -⟩ | ⟨rfl, -⟩ <;> decide

theorem Pair.closing_mem (h : Pair opening closing) : closing ∈ brackets := by
  rcases h with ⟨-, rfl⟩ | ⟨-, rfl⟩ <;> decide

/-! ## Single characters -/

theorem step_opening (h : Pair opening closing) :
    n.step opening = ⟨opening :: n.opened, n.stray⟩ := by
  rcases h with ⟨rfl, -⟩ | ⟨rfl, -⟩ <;> rfl

theorem step_closing (h : Pair opening closing) {opened stray : List Char} :
    step ⟨opening :: opened, stray⟩ closing = ⟨opened, stray⟩ := by
  rcases h with ⟨rfl, rfl⟩ | ⟨rfl, rfl⟩ <;> rfl

theorem step_plain (h : c ∉ brackets) : n.step c = n := by
  simp only [brackets, List.mem_cons, List.not_mem_nil, or_false, not_or] at h
  obtain ⟨h1, h2, h3, h4⟩ := h
  unfold step
  split <;> first | rfl | contradiction

/-- What is stray stays so. -/
theorem stray_step (n : Nesting) (c : Char) : n.stray <:+ (n.step c).stray := by
  unfold step
  split <;> first | exact List.suffix_rfl | exact List.suffix_cons _ _

/-- As long as nothing is stray, the brackets of a kind that are open count what was opened and not
closed. -/
theorem count_step (h : Pair opening closing) (none : (n.step c).stray = []) :
    (n.step c).opened.count opening + [c].count closing =
      n.opened.count opening + [c].count opening := by
  by_cases plain : c ∈ brackets
  case neg =>
    have other {b : Char} (mem : b ∈ brackets) : [c].count b = 0 :=
      List.count_eq_zero.mpr fun found => plain (List.mem_singleton.mp found ▸ mem)
    rw [step_plain plain, other h.opening_mem, other h.closing_mem]
  case pos =>
    unfold step at none ⊢
    split at none
    -- an opening bracket is put in front, and a closing one takes its partner away
    case h_1 | h_2 | h_3 | h_4 => rcases h with ⟨rfl, rfl⟩ | ⟨rfl, rfl⟩ <;> simp
    case h_5 | h_6 => exact absurd none (List.cons_ne_nil _ _)
    case h_7 parenthesis reference _ _ close closeReference =>
      simp only [brackets, List.mem_cons, List.not_mem_nil, or_false] at plain
      rcases plain with rfl | rfl | rfl | rfl
      · exact (parenthesis _ _ rfl rfl).elim
      · exact (close _ _ rfl rfl).elim
      · exact (reference _ _ rfl rfl).elim
      · exact (closeReference _ _ rfl rfl).elim

/-! ## Texts -/

theorem nesting_append (s t : List Char) : nesting (s ++ t) = t.foldl step (nesting s) :=
  List.foldl_append

theorem stray_foldl (text : List Char) (n : Nesting) :
    n.stray <:+ (text.foldl step n).stray := by
  induction text generalizing n with
  | nil => exact List.suffix_rfl
  | cons c text ih => exact (stray_step n c).trans (ih (n.step c))

theorem count_foldl (h : Pair opening closing) {text : List Char}
    (none : (text.foldl step n).stray = []) :
    (text.foldl step n).opened.count opening + text.count closing =
      n.opened.count opening + text.count opening := by
  induction text generalizing n with
  | nil => rfl
  | cons c text ih =>
    have first : (n.step c).stray = [] := by
      have grown := stray_foldl text (n.step c)
      rw [List.foldl_cons] at none
      rwa [none, List.suffix_nil] at grown
    have here := count_step h first
    have later := ih none
    rw [List.foldl_cons, ← List.singleton_append, List.count_append, List.count_append]
    omega

/-- Without stray brackets, one is left open exactly when there are more of its kind than of its
partner. -/
theorem leavesOpen_iff (h : Pair opening closing) {text : List Char}
    (none : (nesting text).stray = []) :
    Suggestion.leavesOpen opening closing text = true ↔ opening ∈ (nesting text).opened := by
  have counted : (nesting text).opened.count opening + text.count closing =
      0 + text.count opening := count_foldl h none
  rw [Suggestion.leavesOpen, decide_eq_true_eq, ← List.count_pos_iff]
  omega

/-! ## Derived texts -/

theorem level_nil : Level [] :=
  fun _ => rfl

theorem Level.append (hs : Level s) (ht : Level t) : Level (s ++ t) := by
  intro n
  rw [List.foldl_append, hs, ht]

theorem level_of_not_mem (h : ∀ b ∈ brackets, b ∉ s) : Level s := by
  induction s with
  | nil => exact level_nil
  | cons c s ih =>
    have plain : c ∉ brackets := fun mem => h c mem List.mem_cons_self
    intro n
    rw [List.foldl_cons, step_plain plain]
    exact ih (fun b mem found => h b mem (List.mem_cons_of_mem c found)) n

theorem level_singleton (h : c ∉ brackets) : Level [c] :=
  level_of_not_mem fun _ mem found => h (List.mem_singleton.mp found ▸ mem)

theorem Level.bracketed (h : Pair opening closing) (hs : Level s) :
    Level (opening :: (s ++ [closing])) := by
  intro n
  rw [List.foldl_cons, List.foldl_append, step_opening h, hs, List.foldl_cons, step_closing h]
  rfl

theorem level_blanks (i : Nat) : Level (blanks i) := by
  refine level_of_not_mem fun b mem found => ?_
  rw [List.eq_of_mem_replicate found] at mem
  exact absurd mem (by decide)

theorem level_symbol (o : Operation) : Level o.symbol.toList := by
  cases o <;> exact level_singleton (by decide)

/-- A text in brackets, with blanks around it. -/
theorem Level.padded (h : Pair opening closing) (hs : Level s) (i j : Nat) :
    Level (opening :: (blanks i ++ (s ++ (blanks j ++ [closing])))) := by
  have body := (level_blanks i).append (hs.append (level_blanks j))
  simpa only [List.append_assoc] using body.bracketed h

variable [Alphabet]

theorem isNameChar_bracket {b : Char} (h : b ∈ brackets) : isNameChar b = false :=
  have own : brackets ⊆ reserved := by decide
  isNameChar_reserved (own h)

theorem level_name (h : IsName s) : Level s :=
  level_of_not_mem fun _ mem => h.not_mem (isNameChar_bracket mem)

theorem level_number {x : Float} (h : Number s x) : Level s := by
  refine level_of_not_mem fun b mem => h.not_mem (isNameChar_bracket mem) ?_
  simp only [brackets, List.mem_cons, List.not_mem_nil, or_false] at mem
  rcases mem with rfl | rfl | rfl | rfl <;> decide

mutual
theorem level_expression {s : List Char} {e : Expr} : Expression s e → Level s
  | .operand ha => level_operand ha
  | .operation i j o ha he =>
    (level_operand ha).append ((level_blanks i).append
      ((level_symbol o).append ((level_blanks j).append (level_expression he))))

theorem level_operand {s : List Char} {a : Expr} : Operand s a → Level s
  | .group i j he => (level_expression he).padded (.inl ⟨rfl, rfl⟩) i j
  | .number hx => level_number hx
  | .var hs => (level_singleton (c := '#') (by decide)).append (level_name hs)
  | .reference i j he =>
    (level_singleton (c := 'v') (by decide)).append
      ((level_expression he).padded (.inr ⟨rfl, rfl⟩) i j)
  | .call i j hf hes =>
    (level_name hf.1).append ((level_arguments hes).padded (.inl ⟨rfl, rfl⟩) i j)

theorem level_arguments {s : List Char} {es : List Expr} : Arguments Expression s es → Level s
  | .none => level_nil
  | .some he hes => (level_expression he).append (level_further hes)

theorem level_further {s : List Char} {es : List Expr} :
    FurtherArguments Expression s es → Level s
  | .nil => level_nil
  | .cons i j he hes =>
    (level_blanks i).append ((level_singleton (c := ',') (by decide)).append
      ((level_blanks j).append ((level_expression he).append (level_further hes))))
end

end Nesting

open Nesting

variable [Alphabet] {front text : List Char} {e : Expr}

theorem Source.nesting_eq (h : Source text e) : nesting text = ⟨[], []⟩ := by
  cases h with
  | mk i j he =>
    have whole := (level_blanks i).append ((level_expression he).append (level_blanks j))
    exact whole ⟨[], []⟩

/-- The front of a source has no stray brackets. -/
theorem Viable.stray_eq (h : Viable front) : (nesting front).stray = [] := by
  obtain ⟨rest, whole⟩ := h
  obtain ⟨e, derived⟩ := isSource_iff.mp whole
  have grown := stray_foldl rest (nesting front)
  rw [← nesting_append, derived.nesting_eq] at grown
  exact List.suffix_nil.mp grown

/-- No source starts with a closing parenthesis. -/
theorem not_viable_close (i : Nat) (rest : List Char) : ¬ Viable (blanks i ++ ')' :: rest) := by
  intro h
  have front : Viable (blanks i ++ [')']) := by
    rw [← List.singleton_append, ← List.append_assoc] at h
    exact h.shorter
  have none := front.stray_eq
  rw [nesting_append, nesting, level_blanks i] at none
  cases none

end Reckoner.Grammar
