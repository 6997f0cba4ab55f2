import Reckoner.Proofs.Parser.Ends
import Reckoner.Proofs.Text.Position

/-!
# Parsers that move on

`Gains` is about the index of a place alone: started at an index of the text from `i` on, a parser
succeeds at an index that is larger by `gain` at least and not past the end, or fails. In particular
it does not halt. What two parsers gain one after the other adds up, and the second one only has to
be described for the indices that the first one can reach. A repetition ends when its parser gains
something at each turn and there are more turns than characters ahead.
-/

namespace Reckoner.Parser

variable {α β : Type} {p : TextParser α} {gain gain' n i : Nat} {text : List Char}

/-- A place at an index of `text` that is not before `least`. -/
def WithinText (text : List Char) (least : Nat) (q : Position) : Prop :=
  ∃ j : Nat, q.index = j ∧ least ≤ j ∧ j ≤ text.length

/-- Runs that start at an index from `i` on end, and a success has moved on by `gain` at least. -/
def Gains (p : TextParser α) (gain n : Nat) (text : List Char) (i : Nat) : Prop :=
  ∀ (place : Position) (j : Nat), place.index = j → i ≤ j → j ≤ text.length →
    p.Ends n text place (fun _ q => WithinText text (j + gain) q) (fun _ => True) fun _ => False

theorem WithinText.mono {q : Position} {least lower : Nat} (h : WithinText text least q)
    (hl : lower ≤ least) : WithinText text lower q := by
  obtain ⟨j, index, hj, last⟩ := h
  exact ⟨j, index, Nat.le_trans hl hj, last⟩

theorem Gains.less (h : p.Gains gain n text i) (less : gain' ≤ gain) : p.Gains gain' n text i := by
  intro place j index first last
  refine (h place j index first last).mono (fun _ _ hq => ?_) fun _ _ => trivial
  exact hq.mono (Nat.add_le_add_left less j)

theorem Gains.from {i' : Nat} (h : p.Gains gain n text i) (later : i ≤ i') :
    p.Gains gain n text i' :=
  fun place j index first last => h place j index (Nat.le_trans later first) last

theorem Gains.ne_outOfFuel {place : Position} (h : p.Gains gain n text i)
    (index : place.index = i) (inside : i ≤ text.length) :
    p.parse n text place ≠ .halted .outOfFuel := by
  intro halts
  have ends := h place i index (Nat.le_refl i) inside
  rw [Ends, halts] at ends
  cases ends with
  | halted none => exact none

/-! ## Primitives -/

theorem gains_pure (v : α) : (pure v : TextParser α).Gains 0 n text i :=
  fun _ j index _ last => ends_pure ⟨j, index, Nat.le_refl j, last⟩

open TextParser

theorem parse_ofLook_index {look : Position → Option Char → Except TextError (α × Position)}
    {place : Position} (index : place.index = i) :
    (ofLook look).parse n text place =
      match look place text[i]? with
      | .ok (v, q) => .success v text q
      | .error e => .failure e text place := by
  have inside : isBefore text place = false := by
    rw [isBefore, index, decide_eq_false_iff_not]
    omega
  simp only [ofLook, inside, index, charAt?_natCast]
  rfl

theorem gains_satisfy (accepts : Char → Bool) (expected : String) :
    (satisfy accepts expected).Gains 1 n text i := by
  intro place j index _ _
  unfold Ends satisfy
  rw [parse_ofLook_index index]
  cases found : text[j]? with
  | none => exact .failure trivial
  | some c =>
    obtain ⟨inside, -⟩ := List.getElem?_eq_some_iff.mp found
    by_cases hc : accepts c = true
    · simp only [hc, if_true]
      refine .success ⟨j + 1, ?_, Nat.le_refl _, inside⟩
      rw [Position.after_index, index]
      rfl
    · simp only [hc]
      exact .failure trivial

theorem gains_char (c : Char) : (char c).Gains 1 n text i :=
  gains_satisfy _ _

theorem gains_literal (pattern : String) :
    (literal pattern).Gains pattern.toList.length n text i := by
  intro place j index _ last
  by_cases found : hasAt text pattern.toList place.index
  · simp only [Ends, literal, ofStep, found, if_true]
    have cut : cutPoint text j = j := by
      rw [cutPoint, if_pos (Int.natCast_nonneg j), Int.toNat_natCast]
      exact Nat.min_eq_left last
    rw [hasAt, index, cut, Bool.and_eq_true, List.isPrefixOf_iff_prefix] at found
    have fits := found.2.length_le
    rw [List.length_drop] at fits
    refine .success ⟨j + pattern.toList.length, ?_, Nat.le_refl _, Nat.add_le_of_le_sub' last fits⟩
    rw [Position.after_index, index]
    rfl
  · simp only [Ends, literal, ofStep, found]
    exact .failure trivial

theorem gains_endOfText : endOfText.Gains 0 n text i := by
  intro place j index _ last
  unfold Ends endOfText
  rw [parse_ofLook_index index]
  cases text[j]? with
  | none => exact .success ⟨j, index, Nat.le_refl j, last⟩
  | some c => exact .failure trivial

theorem gains_position : position.Gains 0 n text i :=
  fun _ j index _ last => .success ⟨j, index, Nat.le_refl j, last⟩

/-! ## Combinators -/

theorem Gains.map (f : α → β) (h : p.Gains gain n text i) : (p.map f).Gains gain n text i :=
  fun place j index first last => (h place j index first last).map f

theorem Gains.mapError (f : TextError → TextError) (h : p.Gains gain n text i) :
    (p.mapError f).Gains gain n text i :=
  fun place j index first last => (h place j index first last).mapError f

/-- The second parser starts where the first one has moved on. -/
theorem Gains.bind {f : α → TextParser β} (h : p.Gains gain n text i)
    (hf : ∀ v, (f v).Gains gain' n text (i + gain)) :
    (p.bind f).Gains (gain + gain') n text i := by
  intro place j index first last
  refine (h place j index first last).bind fun v q hq => ?_
  obtain ⟨k, index', hk, last'⟩ := hq
  have reached : i + gain ≤ k := Nat.le_trans (Nat.add_le_add_right first gain) hk
  refine (hf v q k index' reached last').mono (fun _ _ hq => hq.mono ?_) fun _ _ => trivial
  rw [← Nat.add_assoc]
  exact Nat.add_le_add_right hk gain'

theorem Gains.seqRight {q : TextParser β} (h : p.Gains gain n text i)
    (hq : q.Gains gain' n text (i + gain)) : (p.seqRight q).Gains (gain + gain') n text i :=
  h.bind fun _ => hq

theorem Gains.seqLeft {q : TextParser β} (h : p.Gains gain n text i)
    (hq : q.Gains gain' n text (i + gain)) : (p.seqLeft q).Gains (gain + gain') n text i :=
  h.bind fun _ => hq.map _

theorem Gains.both {q : TextParser β} (h : p.Gains gain n text i)
    (hq : q.Gains gain' n text (i + gain)) : (p.both q).Gains (gain + gain') n text i :=
  h.bind fun _ => hq.map _

theorem Gains.orElse {q : TextParser α} (h : p.Gains gain n text i) (hq : q.Gains gain n text i) :
    (p.orElse q).Gains gain n text i :=
  fun place j index first last => (h place j index first last).orElse (hq place j index first last)

theorem Gains.orDefault (v : α) (h : p.Gains gain n text i) : (p.orDefault v).Gains 0 n text i :=
  (h.less (Nat.zero_le gain)).orElse (gains_pure v)

theorem Gains.firstOf {others : List (TextParser α)} (h : p.Gains gain n text i)
    (hs : ∀ q ∈ others, q.Gains gain n text i) : (firstOf p others).Gains gain n text i :=
  fun place j index first last =>
    (h place j index first last).firstOf fun q hq => hs q hq place j index first last

theorem Gains.farthestOf {others : List (TextParser α)} (h : p.Gains gain n text i)
    (hs : ∀ q ∈ others, q.Gains gain n text i) : (farthestOf p others).Gains gain n text i :=
  fun place j index first last =>
    (h place j index first last).farthestOf fun q hq => hs q hq place j index first last

/-! ## Repetitions -/

/-- A repetition of a parser that moves on ends when there are more turns than characters ahead. -/
theorem Gains.many1 (h : p.Gains 1 n text i) (enough : text.length < n + i) :
    p.many1.Gains 1 n text i := by
  intro place j index first last
  -- with `t` turns left there are fewer than `t` characters ahead
  refine Ends.many1 (fun t q => ∃ k : Nat, q.index = k ∧ j + 1 ≤ k ∧ k ≤ text.length ∧
    text.length < t + k) ?_ ?_ ?_ ?_
  · refine (h place j index first last).mono ?_ fun _ _ => trivial
    rintro _ q ⟨k, index', hk, last'⟩
    exact ⟨k, index', hk, last', by omega⟩
  · rintro q ⟨k, -, -, last', none⟩
    omega
  · rintro t q ⟨k, index', hk, last', -⟩
    exact ⟨k, index', hk, last'⟩
  · rintro t q ⟨k, index', hk, last', left⟩
    have reached : i ≤ k := Nat.le_trans first (Nat.le_of_succ_le hk)
    refine (h q k index' reached last').mono ?_ fun _ _ => trivial
    rintro _ q' ⟨l, index'', hl, last''⟩
    exact ⟨l, index'', Nat.le_trans (Nat.le_succ_of_le hk) hl, last'', by omega⟩

theorem Gains.many (h : p.Gains 1 n text i) (enough : text.length < n + i) :
    p.many.Gains 0 n text i :=
  (h.many1 enough).orDefault []

theorem gains_spaces (enough : text.length < n + i) : spaces.Gains 0 n text i :=
  (gains_char ' ').many enough

end Reckoner.Parser
