import Reckoner.Proofs.Parser.Primitives

/-!
# What errors say

`Blames` is about the errors of a run alone: whatever the reply, if it is a failure then its error
is one of a kind. Where the run succeeds is left to `Answers`, so a rule that is known to read what
it should only has its errors to be followed. Choices and repetitions drop errors. A choice by reach
reports the error of one alternative: of two, the later one only when it got further.

An error is `Met` some piece ahead of where the run started, and tells what was found there.
-/

namespace Reckoner

variable {ε φ α β : Type}

/-- A reply that is a failure has an error that `bad` admits. -/
def Reply.Blames {ι κ : Type} (bad : ε → Prop) : Reply ι κ ε α → Prop
  | .failure e _ _ => bad e
  | _ => True

theorem Reply.blames_map {ι κ : Type} {bad : ε → Prop} (f : α → β) {r : Reply ι κ ε α} :
    (r.map f).Blames bad ↔ r.Blames bad := by
  cases r <;> rfl

namespace Parser

/-- If a run of `p` between `before` and `ahead` fails, `bad` admits its error. -/
def Blames (p : Parser (List Char) Position ε α) (n : Nat) (before ahead : List Char)
    (bad : ε → Prop) : Prop :=
  (p.parse n (before ++ ahead) (Position.start.after before)).Blames bad

variable {p : Parser (List Char) Position ε α} {n : Nat} {before ahead : List Char}
  {good : List Char → List Char → α → Prop} {bad bad' : ε → Prop}

theorem Answers.blames (h : p.Answers n before ahead good bad) : p.Blames n before ahead bad := by
  unfold Blames
  rcases h with ⟨piece, rest, v, rfl, reads, -⟩ | ⟨e, misses, he⟩
  · rw [reads]
    trivial
  · rw [misses]
    exact he

theorem Blames.mono (h : p.Blames n before ahead bad) (hb : ∀ e, bad e → bad' e) :
    p.Blames n before ahead bad' := by
  unfold Blames at h ⊢
  cases run : p.parse n (before ++ ahead) (Position.start.after before) with
  | failure e s k => exact hb e (by rwa [run] at h)
  | success | halted => trivial

theorem Blames.and (h : p.Blames n before ahead bad) (h' : p.Blames n before ahead bad') :
    p.Blames n before ahead fun e => bad e ∧ bad' e := by
  unfold Blames at h h' ⊢
  cases run : p.parse n (before ++ ahead) (Position.start.after before) with
  | failure e s k => exact ⟨by rwa [run] at h, by rwa [run] at h'⟩
  | success | halted => trivial

/-- The error of a run on a whole text. -/
theorem Blames.of_failure {e : ε} {rest : List Char} {q : Position} (h : p.Blames n [] ahead bad)
    (failed : p.parse n ahead .start = .failure e rest q) : bad e := by
  rw [Blames, List.nil_append, Position.after_nil, failed] at h
  exact h

/-! ## Sequences, choices and repetitions -/

theorem Blames.map (f : α → β) (h : p.Blames n before ahead bad) :
    (p.map f).Blames n before ahead bad :=
  (Reply.blames_map f).mpr h

theorem Blames.mapError {bad : φ → Prop} (f : ε → φ)
    (h : p.Blames n before ahead fun e => bad (f e)) :
    (p.mapError f).Blames n before ahead bad := by
  unfold Blames Parser.mapError at *
  dsimp only
  generalize p.parse n (before ++ ahead) (Position.start.after before) = reply at h ⊢
  cases reply with
  | failure e s k => exact h
  | success | halted => trivial

/-- An error of a sequence is one of the first parser, or one of the second where the first one
ended. -/
theorem Blames.bind {f : α → Parser (List Char) Position ε β} {bad₀ : ε → Prop}
    (hb : p.Blames n before ahead bad) (h : p.Answers n before ahead good bad₀)
    (hf : ∀ a rest v, ahead = a ++ rest → good a rest v → (f v).Blames n (before ++ a) rest bad) :
    (p.bind f).Blames n before ahead bad := by
  unfold Blames Parser.bind at *
  dsimp only
  rcases h with ⟨a, rest, v, rfl, reads, hv⟩ | ⟨e, misses, -⟩
  · have later := hf a rest v rfl hv
    unfold Reads at reads
    rw [List.append_assoc] at later
    rw [reads]
    dsimp only
    generalize (f v).parse n (before ++ (a ++ rest)) (Position.start.after (before ++ a)) = reply
      at later ⊢
    cases reply with
    | failure e s k => exact later
    | success | halted => trivial
  · unfold Misses at misses
    rw [misses] at hb ⊢
    exact hb

/-- The errors of the first parser are known from what it answers. -/
theorem Answers.blames_bind {f : α → Parser (List Char) Position ε β}
    (h : p.Answers n before ahead good bad)
    (hf : ∀ a rest v, ahead = a ++ rest → good a rest v → (f v).Blames n (before ++ a) rest bad) :
    (p.bind f).Blames n before ahead bad :=
  h.blames.bind h hf

theorem blames_pure (v : α) :
    (pure v : Parser (List Char) Position ε α).Blames n before ahead bad :=
  trivial

/-- The error of the first alternative is dropped. -/
theorem blames_orElse {q : Parser (List Char) Position φ α} {bad : φ → Prop}
    (p : Parser (List Char) Position ε α) (hq : q.Blames n before ahead bad) :
    (p.orElse q).Blames n before ahead bad := by
  unfold Blames Parser.orElse
  dsimp only
  split
  · trivial
  · exact hq
  · trivial

theorem blames_orDefault (p : Parser (List Char) Position ε α) (v : α) :
    (p.orDefault v).Blames n before ahead bad :=
  blames_orElse p (blames_pure v)

/-- A repetition that has begun does not fail. -/
theorem blames_repeated (p : Parser (List Char) Position ε α) (turns : Nat) (s : List Char)
    (k : Position) : (p.repeated n turns s k).Blames bad := by
  induction turns generalizing s k with
  | zero => trivial
  | succ turns ih =>
    unfold repeated
    split
    · exact (Reply.blames_map _).mpr (ih _ _)
    · trivial
    · trivial

theorem Blames.many1 (h : p.Blames n before ahead bad) : p.many1.Blames n before ahead bad := by
  unfold Blames Parser.many1 at *
  dsimp only
  generalize p.parse n (before ++ ahead) (Position.start.after before) = reply at h ⊢
  cases reply with
  | success v s k => exact (Reply.blames_map _).mpr (blames_repeated p n s k)
  | failure e s k => exact h
  | halted => trivial

/-! ## Choices by reach -/

section Reach

variable {p q : TextParser α} {others : List (TextParser α)} {bad bad' : TextError → Prop}

theorem further_of_le {a b : TextError} (h : Reaching.reach b ≤ Reaching.reach a) :
    further a b = a := by
  have ahead : ¬ Reaching.reach a < Reaching.reach b := Int.not_lt.mpr h
  unfold further
  exact if_neg (by simpa [Reaching.isNothing] using ahead)

theorem further_assoc (a b c : TextError) : further (further a b) c = further a (further b c) := by
  simp only [further, Reaching.isNothing, Bool.false_or, decide_eq_true_eq]
  grind

/-- What is left of the errors does not depend on where the comparison starts. -/
theorem blames_tryFarthest {s : List Char} {k : Position} {worst worst' : TextError}
    (h : (tryFarthest n s k worst others).Blames fun e => bad (further worst' e)) :
    (tryFarthest n s k (further worst' worst) others).Blames bad := by
  induction others generalizing worst with
  | nil => exact h
  | cons r others ih =>
    unfold tryFarthest at h ⊢
    cases run : r.parse n s k with
    | success v t j => trivial
    | failure e t j =>
      rw [run] at h
      dsimp only at h ⊢
      rw [further_assoc]
      exact ih h
    | halted cause => trivial

theorem Blames.farthestOf_nil (h : p.Blames n before ahead bad) :
    (farthestOf p []).Blames n before ahead bad := by
  unfold Blames Parser.farthestOf at *
  dsimp only
  generalize p.parse n (before ++ ahead) (Position.start.after before) = reply at h ⊢
  cases reply with
  | failure e s k => exact h
  | success | halted => trivial

/-- The others are only tried when the first alternative fails. -/
theorem Blames.farthestOf (h : p.Blames n before ahead bad)
    (hq : ∀ e, bad e →
      (farthestOf q others).Blames n before ahead fun later => bad' (further e later)) :
    (farthestOf p (q :: others)).Blames n before ahead bad' := by
  unfold Blames Parser.farthestOf at *
  dsimp only at hq ⊢
  generalize p.parse n (before ++ ahead) (Position.start.after before) = reply at h ⊢
  cases reply with
  | success v s k => trivial
  | failure e s k =>
    have later := hq e h
    dsimp only
    unfold tryFarthest
    generalize q.parse n (before ++ ahead) (Position.start.after before) = reply at later ⊢
    cases reply with
    | success v s k => trivial
    | failure e' s k => exact blames_tryFarthest later
    | halted cause => trivial
  | halted cause => trivial

end Reach

end Parser

/-! ## Where errors are met -/

namespace TextParser

open Reckoner.Parser

variable {n : Nat} {before ahead a rest : List Char} {ok ok' : List Char → String → Prop}
  {e : TextError}

/-- The error was met some `piece` ahead, where it tells what was found, and `ok` admits the piece
and what was expected behind it. -/
def Met (before ahead : List Char) (ok : List Char → String → Prop) (e : TextError) : Prop :=
  ∃ piece found expected, ahead = piece ++ found ∧
    e = errorAt expected (Position.start.after (before ++ piece)) found.head? ∧ ok piece expected

theorem met_here {expected : String} (h : ok [] expected) :
    Met before ahead ok (errorAt expected (Position.start.after before) ahead.head?) :=
  ⟨[], ahead, expected, rfl, by rw [List.append_nil], h⟩

theorem Met.mono (h : Met before ahead ok e)
    (hok : ∀ piece found x, ahead = piece ++ found → ok piece x → ok' piece x) :
    Met before ahead ok' e := by
  obtain ⟨piece, found, x, split, rfl, hx⟩ := h
  exact ⟨piece, found, x, split, rfl, hok piece found x split hx⟩

theorem Met.expecting {expected : String} (h : Met before ahead ok e)
    (hok : ∀ piece x, ok piece x → ok' piece expected) :
    Met before ahead ok' (e.expecting expected) := by
  obtain ⟨piece, found, x, split, rfl, hx⟩ := h
  exact ⟨piece, found, expected, split, rfl, hok piece x hx⟩

/-- An error that is met from behind `a` on is met behind `a`. -/
theorem Met.behind (h : Met (before ++ a) rest (fun piece x => ok (a ++ piece) x) e) :
    Met before (a ++ rest) ok e := by
  obtain ⟨piece, found, x, rfl, rfl, hx⟩ := h
  refine ⟨a ++ piece, found, x, (List.append_assoc ..).symm, ?_, hx⟩
  rw [List.append_assoc]

theorem reach_errorAt (expected : String) (text : List Char) (found? : Option Char) :
    Reaching.reach (errorAt expected (Position.start.after text) found?) = (text.length : Int) :=
  Position.index_start_after text

theorem Met.le_reach {k : Nat} (h : Met before ahead ok e)
    (hok : ∀ piece x, ok piece x → k ≤ piece.length) :
    ((before.length + k : Nat) : Int) ≤ Reaching.reach e := by
  obtain ⟨piece, found, x, -, rfl, hx⟩ := h
  rw [reach_errorAt, List.length_append]
  exact Int.ofNat_le.mpr (Nat.add_le_add_left (hok piece x hx) before.length)

/-! ## Primitives -/

theorem blames_satisfy (accepts : Char → Bool) (expected : String) :
    (satisfy accepts expected).Blames n before ahead fun e =>
      e = errorAt expected (Position.start.after before) ahead.head? := by
  unfold Blames satisfy
  rw [parse_ofLook]
  cases ahead.head? with
  | none => rfl
  | some c =>
    by_cases hc : accepts c = true
    · simp only [hc, if_true]
      trivial
    · simp only [hc]
      rfl

theorem blames_char (c : Char) (h : ok [] (String.singleton c)) :
    (char c).Blames n before ahead (Met before ahead ok) :=
  (blames_satisfy _ _).mono fun _ he => he ▸ met_here h

theorem blames_endOfText (h : ok [] TextError.endMark) :
    endOfText.Blames n before ahead (Met before ahead ok) := by
  unfold Blames endOfText
  rw [parse_ofLook]
  cases found : ahead.head? with
  | none => trivial
  | some c =>
    have here : Met before ahead ok
        (errorAt TextError.endMark (Position.start.after before) ahead.head?) := met_here h
    rw [found] at here
    exact here

end TextParser

end Reckoner
