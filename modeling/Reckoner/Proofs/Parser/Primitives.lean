import Reckoner.Proofs.Parser.Rows

/-!
# What the primitive parsers of texts read

A character parser reads one character, `literal` its pattern, `spaces` every space ahead. The end
of the text and the position are read without moving.
-/

namespace Reckoner.TextParser

open Reckoner.Parser

variable {n : Nat} {before ahead rest : List Char}

theorem isBefore_after :
    isBefore (before ++ ahead) (Position.start.after before) = false := by
  rw [isBefore, Position.index_start_after, decide_eq_false_iff_not]
  omega

/-- Looking at a place is looking at the first character ahead. -/
theorem parse_ofLook {α : Type} (look : Position → Option Char → Except TextError (α × Position)) :
    (ofLook look).parse n (before ++ ahead) (Position.start.after before) =
      match look (Position.start.after before) ahead.head? with
      | .ok (v, p) => .success v (before ++ ahead) p
      | .error e => .failure e (before ++ ahead) (Position.start.after before) := by
  simp only [ofLook, isBefore_after, charAt?_after]
  rfl

theorem readsChar_satisfy (accepts : Char → Bool) (expected : String) :
    (satisfy accepts expected).ReadsChar accepts := by
  constructor
  · intro n before c rest hc
    rw [Reads, satisfy, parse_ofLook, ← Position.after_append]
    simp [hc]
  · intro n before ahead hc
    cases ahead with
    | nil =>
      refine ⟨errorAt expected (Position.start.after before) none, ?_⟩
      rw [Misses, satisfy, parse_ofLook]
      rfl
    | cons c rest =>
      refine ⟨errorAt expected (Position.start.after before) (some c), ?_⟩
      rw [Misses, satisfy, parse_ofLook]
      simp [hc c rfl]

theorem readsChar_char (c : Char) : (char c).ReadsChar fun d => d = c :=
  readsChar_satisfy ..

theorem readsChar_digit : digit.ReadsChar Char.isDigit :=
  readsChar_satisfy ..

theorem readsChar_alphanumeric [Alphabet] :
    alphanumeric.ReadsChar fun c => isLetter c || c.isDigit :=
  ((readsChar_satisfy isLetter "letter").orElse readsChar_digit).mapError _

theorem reads_char (c : Char) : (char c).Reads n before [c] rest c :=
  (readsChar_char c).reads (by simp)

theorem misses_char {c : Char} (h : ahead.head? ≠ some c) : (char c).Misses n before ahead
    (errorAt (String.singleton c) (Position.start.after before) ahead.head?) := by
  rw [Misses, char, satisfy, parse_ofLook]
  cases ahead with
  | nil => rfl
  | cons d rest =>
    have other : d ≠ c := fun same => h (congrArg some same)
    simp [other]

theorem fails_char {c : Char} (h : ahead.head? ≠ some c) : (char c).Fails n before ahead :=
  ⟨_, misses_char h⟩

theorem answers_char (c : Char) :
    (char c).Answers n before ahead (fun s _ _ => s = [c]) fun _ => True :=
  (readsChar_char c).answers.mono
    (fun _ _ _ _ h => by rw [h.1, of_decide_eq_true h.2]) fun _ h => h

theorem reads_literal (pattern : String) :
    (literal pattern).Reads n before pattern.toList rest pattern := by
  have found : pattern.toList.isPrefixOf (pattern.toList ++ rest) = true :=
    List.isPrefixOf_iff_prefix.mpr (List.prefix_append ..)
  simp only [Reads, literal, ofStep, hasAt_after, found, if_true, Position.after_append]

theorem fails_literal {pattern : String} (h : ¬ pattern.toList <+: ahead) :
    (literal pattern).Fails n before ahead := by
  have differs : pattern.toList.isPrefixOf ahead = false := by
    rw [← Bool.not_eq_true, List.isPrefixOf_iff_prefix]
    exact h
  simp only [Fails, Misses, literal, ofStep, hasAt_after, differs, Bool.false_eq_true, if_false]
  exact ⟨_, rfl⟩

theorem answers_literal (pattern : String) :
    (literal pattern).Answers n before ahead (fun s _ v => s = pattern.toList ∧ v = pattern)
      fun _ => True := by
  by_cases h : pattern.toList <+: ahead
  · obtain ⟨rest, rfl⟩ := h
    exact (reads_literal pattern).answers ⟨rfl, rfl⟩
  · obtain ⟨e, he⟩ : (literal pattern).Fails n before ahead := fails_literal h
    exact .inr ⟨e, he, trivial⟩

theorem reads_endOfText : endOfText.Reads n before [] [] () := by
  rw [Reads, endOfText, parse_ofLook]
  simp

theorem misses_endOfText (c : Char) : endOfText.Misses n before (c :: rest)
    (errorAt TextError.endMark (Position.start.after before) (some c)) := by
  rw [Misses, endOfText, parse_ofLook]
  rfl

theorem answers_endOfText :
    endOfText.Answers n before ahead (fun s rest _ => s = [] ∧ rest = []) fun _ => True := by
  cases ahead with
  | nil => exact reads_endOfText.answers ⟨rfl, rfl⟩
  | cons c rest => exact .inr ⟨_, misses_endOfText c, trivial⟩

/-- No character is shown as the end of the text is. -/
theorem singleton_ne_endMark (c : Char) : String.singleton c ≠ TextError.endMark := by
  intro same
  have lengths := congrArg String.length same
  rw [String.length_singleton] at lengths
  exact absurd lengths (by decide)

theorem reads_position : position.Reads n before [] rest (Position.start.after before) := by
  rw [Reads, List.append_nil]
  rfl

theorem eq_replicate_blank {s : List Char} (h : ∀ c ∈ s, decide (c = ' ') = true) :
    s = List.replicate s.length ' ' :=
  List.eq_replicate_iff.mpr ⟨rfl, fun c hc => of_decide_eq_true (h c hc)⟩

theorem reads_spaces {i : Nat} (stops : rest.head? ≠ some ' ') (enough : i ≤ n) :
    spaces.Reads n before (List.replicate i ' ') rest (List.replicate i ' ') := by
  refine (readsChar_char ' ').many (fun c hc => ?_) (fun c hc => ?_) (by simpa using enough)
  · simpa using (List.mem_replicate.mp hc).2
  · have : c ≠ ' ' := fun he => stops (he ▸ hc)
    simpa using this

/-- The spaces ahead are read to the last. -/
theorem answers_spaces {bad : TextError → Prop} (enough : ahead.length ≤ n) :
    spaces.Answers n before ahead
      (fun s rest _ => (∃ i, s = List.replicate i ' ') ∧ rest.head? ≠ some ' ') bad := by
  refine ((readsChar_char ' ').answers_many enough).mono (fun s rest v _ h => ?_) fun _ h => h
  refine ⟨⟨s.length, eq_replicate_blank h.2.1⟩, fun he => ?_⟩
  simpa using h.2.2 ' ' he

end Reckoner.TextParser
