import Reckoner.Proofs.Grammar.Diagnosis
import Reckoner.Proofs.Grammar.Nesting
import Reckoner.Text.Letter

/-!
# Suggestions are right

Suggestions are made from counts of brackets and from what was expected and found. An error at the
end of a text means that all of the text is the front of a source, so the counts tell what is left
open. An error that expects the end means that a whole source stands before it, and conversely a
source is read as a whole when a parenthesis follows that closes nothing.
-/

namespace Reckoner

open Reckoner.Grammar Reckoner.Parser Reckoner.TextParser

/-! ## When a suggestion is made -/

namespace Suggestion

theorem text_injective {a b : Suggestion} (h : a.text = b.text) : a = b := by
  revert h
  cases a <;> cases b <;> decide +kernel

variable {expected found : String} {text : List Char}

theorem closeParenthesis_mem_all : closeParenthesis ∈ all expected found text ↔
    found = TextError.endMark ∧ leavesOpen '(' ')' text = true := by
  simp [all, apply_ite (closeParenthesis ∈ ·)]

theorem closeReference_mem_all : closeReference ∈ all expected found text ↔
    found = TextError.endMark ∧ leavesOpen '[' ']' text = true := by
  simp [all, apply_ite (closeReference ∈ ·)]

theorem removeParenthesis_mem_all : removeParenthesis ∈ all expected found text ↔
    expected = TextError.endMark ∧ found = ")" := by
  simp [all, apply_ite (removeParenthesis ∈ ·)]

end Suggestion

theorem mem_suggestions_iff (suggestion : Suggestion) (e : TextError) (text : List Char) :
    suggestion.text ∈ (SyntaxError.ofFailure e .start text).suggestions ↔
      suggestion ∈ Suggestion.all e.expected e.actual text := by
  constructor
  · intro mem
    obtain ⟨other, mem, same⟩ := List.mem_map.mp mem
    rwa [Suggestion.text_injective same] at mem
  · exact List.mem_map_of_mem

/-! ## What was expected and found -/

variable {front : List Char} {c : Char}

theorem actual_eq_endMark_iff (expected : String) (place : Position) (found? : Option Char) :
    (errorAt expected place found?).actual = TextError.endMark ↔ found? = none := by
  cases found? with
  | none => exact iff_of_true rfl rfl
  | some c => exact iff_of_false (singleton_ne_endMark c) nofun

theorem actual_eq_singleton_iff (expected : String) (place : Position) (found? : Option Char) :
    (errorAt expected place found?).actual = String.singleton c ↔ found? = some c := by
  cases found? with
  | none => exact iff_of_false (Ne.symm (singleton_ne_endMark c)) nofun
  | some d =>
    constructor
    · intro same
      have letters := congrArg String.toList same
      simpa [errorAt] using letters
    · rintro ⟨⟩
      rfl

namespace Grammar

variable [Alphabet]

/-- The end is only expected behind a source. -/
theorem Expects.isSource (h : Expects front TextError.endMark) : IsSource front := by
  generalize mark : TextError.endMark = expected at h
  cases h with
  | endOfText whole => exact whole
  | bracket => exact absurd mark (Ne.symm (singleton_ne_endMark _))
  | number | operand | name => exact absurd mark (by decide +kernel)

/-- Behind a whole source the end is expected where a parenthesis stands that closes nothing. -/
theorem run_source_close {e : Expr} (h : Source front e) (rest : List Char) :
    source.run (enoughFuel (front ++ ')' :: rest)) (front ++ ')' :: rest) =
      .failure (errorAt TextError.endMark (Position.start.after front) (some ')'))
        (front ++ ')' :: rest) .start := by
  have enough := lt_enoughFuel (front ++ ')' :: rest)
  rw [List.length_append] at enough
  have closes : ∀ c ∈ (')' :: rest).head?, c = ')' ∨ c = ']' ∨ c = ',' := by
    rintro c ⟨⟩
    exact .inl rfl
  have padded := reads_padded complete_expression h closes enough
  have ending : endOfText.Misses (enoughFuel (front ++ ')' :: rest)) ([] ++ front) (')' :: rest)
      (errorAt TextError.endMark (Position.start.after ([] ++ front)) (some ')')) :=
    misses_endOfText ')'
  exact (padded.bind_misses (ending.map _)).parse_whole

end Grammar

/-- A parenthesis or a reference is said to be open exactly when reading got to the end of the text
and matching the brackets of the text leaves one open. A parenthesis is to be removed exactly when
reading stopped at one and all that stands before it is a source. -/
theorem suggestions_right [Alphabet] {s : String} {err : SyntaxError}
    (h : Expr.read? s = .error err) :
    (Suggestion.closeParenthesis.text ∈ err.suggestions ↔
      err.location = s.toList.length ∧ '(' ∈ (nesting s.toList).opened) ∧
    (Suggestion.closeReference.text ∈ err.suggestions ↔
      err.location = s.toList.length ∧ '[' ∈ (nesting s.toList).opened) ∧
    (Suggestion.removeParenthesis.text ∈ err.suggestions ↔
      ∃ l : Nat, err.location = l ∧ l < s.toList.length ∧ s.toList[l]? = some ')' ∧
        IsSource (s.toList.take l)) := by
  obtain ⟨front, ahead, expected, split, expects, failed, rfl⟩ := error_place h
  obtain ⟨location, -⟩ := fields_of_errorAt expects.viable.noBreak expected ahead.head? s.toList rfl
  have atEnd : (front.length : Int) = s.toList.length ↔ ahead = [] := by
    rw [split, List.length_append, ← List.length_eq_zero_iff]
    omega
  -- where the end was found, all of the text is viable, so its brackets can be counted
  have opened {opening closing : Char} (pair : Nesting.Pair opening closing) :
      (errorAt expected (Position.start.after front) ahead.head?).actual = TextError.endMark ∧
          Suggestion.leavesOpen opening closing s.toList = true ↔
        (front.length : Int) = s.toList.length ∧ opening ∈ (nesting s.toList).opened := by
    rw [actual_eq_endMark_iff, List.head?_eq_none_iff, atEnd]
    refine and_congr_right ?_
    rintro rfl
    rw [List.append_nil] at split
    exact Nesting.leavesOpen_iff pair (split ▸ expects.viable.stray_eq)
  refine ⟨?parenthesis, ?reference, ?unmatched⟩
  case parenthesis =>
    rw [mem_suggestions_iff, Suggestion.closeParenthesis_mem_all, location]
    exact opened (.inl ⟨rfl, rfl⟩)
  case reference =>
    rw [mem_suggestions_iff, Suggestion.closeReference_mem_all, location]
    exact opened (.inr ⟨rfl, rfl⟩)
  case unmatched =>
    rw [mem_suggestions_iff, Suggestion.removeParenthesis_mem_all, location]
    constructor
    · rintro ⟨rfl : expected = _, found⟩
      have close : ahead.head? = some ')' := (actual_eq_singleton_iff _ _ _).mp found
      obtain ⟨rest, rfl⟩ := List.head?_eq_some_iff.mp close
      rw [split]
      exact ⟨front.length, rfl, by simp, by simp, by simpa using expects.isSource⟩
    · rintro ⟨l, same, -, close, whole⟩
      obtain rfl : front.length = l := Int.ofNat.inj same
      rw [split, List.getElem?_append_right (Nat.le_refl _), Nat.sub_self,
        ← List.head?_eq_getElem?] at close
      rw [split, List.take_left] at whole
      obtain ⟨rest, rfl⟩ := List.head?_eq_some_iff.mp close
      obtain ⟨e, derived⟩ := isSource_iff.mp whole
      rw [split, run_source_close derived] at failed
      injection failed with error
      exact ⟨(congrArg TextError.expected error).symm, rfl⟩

/-- A parenthesis that is open inside of a reference that is open, too. -/
theorem suggestions_right_reference :
    ∃ err : SyntaxError, Expr.read? "v[(1" = .error err ∧ err.location = 4 ∧
      Suggestion.closeParenthesis.text ∈ err.suggestions ∧
      Suggestion.closeReference.text ∈ err.suggestions ∧
      Suggestion.removeParenthesis.text ∉ err.suggestions := by
  obtain ⟨parenthesis, reference, unmatched⟩ := suggestions_right (s := "v[(1") rfl
  refine ⟨_, rfl, rfl, parenthesis.mpr ⟨rfl, by decide⟩, reference.mpr ⟨rfl, by decide⟩, ?_⟩
  intro remove
  obtain ⟨l, -, -, close, -⟩ := unmatched.mp remove
  exact absurd (List.mem_of_getElem? close) (by decide)

/-- A parenthesis behind a whole source is to be removed. -/
example : ((Expr.read? "(1) )").mapError SyntaxError.suggestions) =
    .error ["Remove the unmatched ')'"] := rfl

end Reckoner
