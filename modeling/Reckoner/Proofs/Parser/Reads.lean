import Reckoner.Proofs.Parser.Ends
import Reckoner.Proofs.Text.Position

/-!
# What parsers of texts read

A run of a parser stands between the text `before` it and the text `ahead`. `Reads` says that it
succeeds with a piece of what is ahead, `Misses` that it fails and gives back what it was given.
`Answers` says that it does one of the two, so that it does not halt, and what is then known of the
piece, the value or the error. Each combinator has one lemma for each of the three.

A repetition reads a `Row`: pieces one after the other, up to a place where its parser fails.
-/

namespace Reckoner.Parser

variable {ε φ α β : Type}

/-- `p` reads `piece` between `before` and `rest`, and gives `v`. -/
def Reads (p : Parser (List Char) Position ε α) (n : Nat) (before piece rest : List Char) (v : α) :
    Prop :=
  p.parse n (before ++ (piece ++ rest)) (Position.start.after before) =
    .success v (before ++ (piece ++ rest)) (Position.start.after (before ++ piece))

/-- `p` fails between `before` and `ahead` with the error `e`, in the place where it was started. -/
def Misses (p : Parser (List Char) Position ε α) (n : Nat) (before ahead : List Char) (e : ε) :
    Prop :=
  p.parse n (before ++ ahead) (Position.start.after before) =
    .failure e (before ++ ahead) (Position.start.after before)

/-- `p` fails between `before` and `ahead`, whatever the error. -/
def Fails (p : Parser (List Char) Position ε α) (n : Nat) (before ahead : List Char) : Prop :=
  ∃ e, p.Misses n before ahead e

/-- `p` reads a piece of `ahead` that `good` admits, with what it leaves and its value, or fails
with an error that `bad` admits. -/
def Answers (p : Parser (List Char) Position ε α) (n : Nat) (before ahead : List Char)
    (good : List Char → List Char → α → Prop) (bad : ε → Prop) : Prop :=
  (∃ piece rest v, ahead = piece ++ rest ∧ p.Reads n before piece rest v ∧ good piece rest v) ∨
    ∃ e, p.Misses n before ahead e ∧ bad e

variable {p : Parser (List Char) Position ε α} {n : Nat} {before ahead piece rest : List Char}
  {v : α} {e : ε}

/-! ## Single steps -/

theorem reads_pure : (pure v : Parser (List Char) Position ε α).Reads n before [] rest v := by
  rw [Reads, List.append_nil]
  rfl

theorem Reads.map (f : α → β) (h : p.Reads n before piece rest v) :
    (p.map f).Reads n before piece rest (f v) := by
  show Reply.map f (p.parse n _ _) = _
  rw [h]
  rfl

theorem Misses.map (f : α → β) (h : p.Misses n before ahead e) :
    (p.map f).Misses n before ahead e := by
  show Reply.map f (p.parse n _ _) = _
  rw [h]
  rfl

theorem Reads.mapError (f : ε → φ) (h : p.Reads n before piece rest v) :
    (p.mapError f).Reads n before piece rest v := by
  simp only [Reads, Parser.mapError] at h ⊢
  rw [h]

theorem Misses.mapError (f : ε → φ) (h : p.Misses n before ahead e) :
    (p.mapError f).Misses n before ahead (f e) := by
  simp only [Misses, Parser.mapError] at h ⊢
  rw [h]

/-- Reading a text from its start to its end. -/
theorem Reads.parse_whole (h : p.Reads n [] piece [] v) :
    p.parse n piece .start = .success v piece (Position.start.after piece) := by
  simpa only [Reads, List.nil_append, List.append_nil, Position.after_nil] using h

theorem Misses.parse_whole (h : p.Misses n [] ahead e) :
    p.parse n ahead .start = .failure e ahead .start := by
  simpa only [Misses, List.nil_append, Position.after_nil] using h

/-! ## One parser after another -/

theorem Reads.bind {f : α → Parser (List Char) Position ε β} {a b : List Char} {w : β}
    (ha : p.Reads n before a (b ++ rest) v) (hb : (f v).Reads n (before ++ a) b rest w) :
    (p.bind f).Reads n before (a ++ b) rest w := by
  simp only [Reads, Parser.bind, List.append_assoc] at ha hb ⊢
  rw [ha]
  simp only
  rw [hb]

theorem Misses.bind {f : α → Parser (List Char) Position ε β} (h : p.Misses n before ahead e) :
    (p.bind f).Misses n before ahead e := by
  simp only [Misses, Parser.bind] at h ⊢
  rw [h]

theorem Reads.bind_misses {f : α → Parser (List Char) Position ε β}
    (h : p.Reads n before piece rest v) (hf : (f v).Misses n (before ++ piece) rest e) :
    (p.bind f).Misses n before (piece ++ rest) e := by
  simp only [Reads, Misses, Parser.bind, List.append_assoc] at h hf ⊢
  rw [h]
  simp only
  rw [hf]

theorem Reads.seqRight {q : Parser (List Char) Position ε β} {a b : List Char} {w : β}
    (ha : p.Reads n before a (b ++ rest) v) (hb : q.Reads n (before ++ a) b rest w) :
    (p.seqRight q).Reads n before (a ++ b) rest w :=
  Reads.bind ha hb

theorem Reads.seqLeft {q : Parser (List Char) Position ε β} {a b : List Char} {w : β}
    (ha : p.Reads n before a (b ++ rest) v) (hb : q.Reads n (before ++ a) b rest w) :
    (p.seqLeft q).Reads n before (a ++ b) rest v :=
  Reads.bind ha (hb.map fun _ => v)

theorem Reads.both {q : Parser (List Char) Position ε β} {a b : List Char} {w : β}
    (ha : p.Reads n before a (b ++ rest) v) (hb : q.Reads n (before ++ a) b rest w) :
    (p.both q).Reads n before (a ++ b) rest (v, w) :=
  Reads.bind ha (hb.map fun w => (v, w))

theorem Fails.map (f : α → β) (h : p.Fails n before ahead) : (p.map f).Fails n before ahead :=
  let ⟨e, he⟩ := h
  ⟨e, he.map f⟩

theorem Fails.mapError (f : ε → φ) (h : p.Fails n before ahead) :
    (p.mapError f).Fails n before ahead :=
  let ⟨e, he⟩ := h
  ⟨f e, he.mapError f⟩

theorem Fails.bind {f : α → Parser (List Char) Position ε β} (h : p.Fails n before ahead) :
    (p.bind f).Fails n before ahead :=
  let ⟨e, he⟩ := h
  ⟨e, he.bind⟩

theorem Reads.bind_fails {f : α → Parser (List Char) Position ε β}
    (h : p.Reads n before piece rest v) (hf : (f v).Fails n (before ++ piece) rest) :
    (p.bind f).Fails n before (piece ++ rest) :=
  let ⟨e, he⟩ := hf
  ⟨e, h.bind_misses he⟩

/-! ## Choices -/

theorem Reads.orElse {q : Parser (List Char) Position φ α} (h : p.Reads n before piece rest v) :
    (p.orElse q).Reads n before piece rest v := by
  simp only [Reads, Parser.orElse] at h ⊢
  rw [h]

theorem Fails.orElse_reads {q : Parser (List Char) Position φ α}
    (h : p.Fails n before (piece ++ rest)) (hq : q.Reads n before piece rest v) :
    (p.orElse q).Reads n before piece rest v := by
  obtain ⟨e, he⟩ := h
  simp only [Reads, Misses, Parser.orElse] at he hq ⊢
  rw [he]
  exact hq

theorem Fails.orElse_misses {q : Parser (List Char) Position φ α} {e' : φ}
    (h : p.Fails n before ahead) (hq : q.Misses n before ahead e') :
    (p.orElse q).Misses n before ahead e' := by
  obtain ⟨e, he⟩ := h
  simp only [Misses, Parser.orElse] at he hq ⊢
  rw [he]
  exact hq

theorem Fails.orElse {q : Parser (List Char) Position φ α} (h : p.Fails n before ahead)
    (hq : q.Fails n before ahead) : (p.orElse q).Fails n before ahead :=
  let ⟨e, he⟩ := hq
  ⟨e, h.orElse_misses he⟩

theorem Reads.orDefault {d : α} (h : p.Reads n before piece rest v) :
    (p.orDefault d).Reads n before piece rest v :=
  h.orElse

theorem Fails.orDefault {d : α} (h : p.Fails n before rest) :
    (p.orDefault d).Reads n before [] rest d :=
  h.orElse_reads reads_pure

theorem Reads.firstOf {others : List (Parser (List Char) Position ε α)}
    (h : p.Reads n before piece rest v) : (firstOf p others).Reads n before piece rest v := by
  induction others generalizing p with
  | nil => exact h
  | cons q others ih => exact ih h.orElse

/-- Only the run of the first alternative matters, not how it is made. -/
theorem firstOf_congr {q : Parser (List Char) Position ε α}
    {others : List (Parser (List Char) Position ε α)} {s : List Char} {k : Position}
    (h : p.parse n s k = q.parse n s k) :
    (firstOf p others).parse n s k = (firstOf q others).parse n s k := by
  induction others generalizing p q with
  | nil => exact h
  | cons r others ih => exact ih (by simp only [Parser.orElse, h])

theorem Fails.firstOf_reads {q : Parser (List Char) Position ε α}
    {others : List (Parser (List Char) Position ε α)} (h : p.Fails n before (piece ++ rest))
    (hq : (Parser.firstOf q others).Reads n before piece rest v) :
    (Parser.firstOf p (q :: others)).Reads n before piece rest v := by
  obtain ⟨e, he⟩ := h
  -- `firstOf` nests to the left: after `p` has failed, `p.orElse q` stands where `q` stood
  refine (firstOf_congr (p := p.orElse q) (q := q) ?_).trans hq
  simp only [Misses] at he
  cases hr : q.parse n (before ++ (piece ++ rest)) (Position.start.after before) <;>
    simp only [Parser.orElse, he, hr]

theorem Fails.firstOf {others : List (Parser (List Char) Position ε α)}
    (h : p.Fails n before ahead) (hs : ∀ q ∈ others, q.Fails n before ahead) :
    (firstOf p others).Fails n before ahead := by
  induction others generalizing p with
  | nil => exact h
  | cons q others ih =>
    exact ih (h.orElse (hs q List.mem_cons_self)) fun r hr => hs r (List.mem_cons_of_mem q hr)

/-- The error reported so far does not matter when an alternative succeeds. -/
theorem tryFarthest_success [Reaching ε] {s s' : List Char} {k k' : Position}
    {others : List (Parser (List Char) Position ε α)} {worst : ε} (worst' : ε)
    (h : tryFarthest n s k worst others = .success v s' k') :
    tryFarthest n s k worst' others = .success v s' k' := by
  induction others generalizing worst worst' with
  | nil => cases h
  | cons q others ih =>
    simp only [tryFarthest] at h ⊢
    cases hq : q.parse n s k with
    | success w t j => rw [hq] at h; exact h
    | failure e t j => rw [hq] at h; exact ih _ h
    | halted c => rw [hq] at h; cases h

theorem Reads.farthestOf [Reaching ε] {others : List (Parser (List Char) Position ε α)}
    (h : p.Reads n before piece rest v) : (farthestOf p others).Reads n before piece rest v := by
  simp only [Reads, Parser.farthestOf] at h ⊢
  rw [h]

theorem Fails.farthestOf_reads [Reaching ε] {q : Parser (List Char) Position ε α}
    {others : List (Parser (List Char) Position ε α)} (h : p.Fails n before (piece ++ rest))
    (hq : (Parser.farthestOf q others).Reads n before piece rest v) :
    (Parser.farthestOf p (q :: others)).Reads n before piece rest v := by
  obtain ⟨e, he⟩ := h
  simp only [Reads, Misses, Parser.farthestOf, tryFarthest] at he hq ⊢
  simp only [he]
  cases hs : q.parse n (before ++ (piece ++ rest)) (Position.start.after before) with
  | success w s k => simpa only [hs] using hq
  | failure e' s k => exact tryFarthest_success _ (by simpa only [hs] using hq)
  | halted c => simp only [hs] at hq; exact nomatch hq

/-! ## Answers -/

variable {good good' : List Char → List Char → α → Prop} {bad bad' : ε → Prop}

theorem Answers.mono (h : p.Answers n before ahead good bad)
    (hg : ∀ piece rest v, ahead = piece ++ rest → good piece rest v → good' piece rest v)
    (hb : ∀ e, bad e → bad' e) : p.Answers n before ahead good' bad' := by
  rcases h with ⟨piece, rest, v, split, reads, hv⟩ | ⟨e, misses, he⟩
  · exact .inl ⟨piece, rest, v, split, reads, hg piece rest v split hv⟩
  · exact .inr ⟨e, misses, hb e he⟩

/-- Only the run between `before` and `ahead` matters. -/
theorem Answers.congr {q : Parser (List Char) Position ε α}
    (h : p.Answers n before ahead good bad)
    (hq : q.parse n (before ++ ahead) (Position.start.after before) =
      p.parse n (before ++ ahead) (Position.start.after before)) :
    q.Answers n before ahead good bad := by
  rcases h with ⟨piece, rest, v, rfl, reads, hv⟩ | ⟨e, misses, he⟩
  · exact .inl ⟨piece, rest, v, rfl, hq.trans reads, hv⟩
  · exact .inr ⟨e, hq.trans misses, he⟩

theorem Reads.answers (h : p.Reads n before piece rest v) (hv : good piece rest v) :
    p.Answers n before (piece ++ rest) good bad :=
  .inl ⟨piece, rest, v, rfl, h, hv⟩

theorem answers_pure (hv : good [] ahead v) :
    (pure v : Parser (List Char) Position ε α).Answers n before ahead good bad :=
  .inl ⟨[], ahead, v, rfl, reads_pure, hv⟩

theorem Answers.map {good : List Char → List Char → β → Prop} (f : α → β)
    (h : p.Answers n before ahead (fun piece rest v => good piece rest (f v)) bad) :
    (p.map f).Answers n before ahead good bad := by
  rcases h with ⟨piece, rest, v, split, reads, hv⟩ | ⟨e, misses, he⟩
  · exact .inl ⟨piece, rest, f v, split, reads.map f, hv⟩
  · exact .inr ⟨e, misses.map f, he⟩

theorem Answers.mapError {bad : φ → Prop} (f : ε → φ)
    (h : p.Answers n before ahead good fun e => bad (f e)) :
    (p.mapError f).Answers n before ahead good bad := by
  rcases h with ⟨piece, rest, v, split, reads, hv⟩ | ⟨e, misses, he⟩
  · exact .inl ⟨piece, rest, v, split, reads.mapError f, hv⟩
  · exact .inr ⟨f e, misses.mapError f, he⟩

/-- The second parser answers for what the first one leaves; `good` is about both pieces. -/
theorem Answers.bind {f : α → Parser (List Char) Position ε β}
    {good' : List Char → List Char → β → Prop} (h : p.Answers n before ahead good bad)
    (hf : ∀ a rest v, ahead = a ++ rest → good a rest v →
      (f v).Answers n (before ++ a) rest (fun b rest w => good' (a ++ b) rest w) bad) :
    (p.bind f).Answers n before ahead good' bad := by
  rcases h with ⟨a, rest, v, rfl, reads, hv⟩ | ⟨e, misses, he⟩
  · rcases hf a rest v rfl hv with ⟨b, rest, w, rfl, reads', hw⟩ | ⟨e, misses, he⟩
    · exact .inl ⟨a ++ b, rest, w, (List.append_assoc ..).symm, reads.bind reads', hw⟩
    · exact .inr ⟨e, reads.bind_misses misses, he⟩
  · exact .inr ⟨e, misses.bind, he⟩

theorem Answers.orElse {q : Parser (List Char) Position φ α} {bad' : φ → Prop}
    (h : p.Answers n before ahead good bad)
    (hq : ∀ e, bad e → q.Answers n before ahead good bad') :
    (p.orElse q).Answers n before ahead good bad' := by
  rcases h with ⟨piece, rest, v, split, reads, hv⟩ | ⟨e, misses, he⟩
  · exact .inl ⟨piece, rest, v, split, reads.orElse, hv⟩
  · rcases hq e he with ⟨piece, rest, v, rfl, reads, hv⟩ | ⟨e', misses', he'⟩
    · exact .inl ⟨piece, rest, v, rfl, Fails.orElse_reads ⟨e, misses⟩ reads, hv⟩
    · exact .inr ⟨e', Fails.orElse_misses ⟨e, misses⟩ misses', he'⟩

theorem Answers.orDefault {d : α} (h : p.Answers n before ahead good bad) :
    (p.orDefault d).Answers n before ahead
      (fun piece rest v => good piece rest v ∨ piece = [] ∧ v = d) bad' :=
  (h.mono (fun _ _ _ _ hv => .inl hv) fun _ he => he).orElse fun _ _ =>
    answers_pure (.inr ⟨rfl, rfl⟩)

theorem Answers.firstOf {others : List (Parser (List Char) Position ε α)}
    (h : p.Answers n before ahead good bad)
    (hs : ∀ q ∈ others, q.Answers n before ahead good bad) :
    (firstOf p others).Answers n before ahead good bad := by
  induction others generalizing p with
  | nil => exact h
  | cons q others ih =>
    exact ih (h.orElse fun _ _ => hs q List.mem_cons_self)
      fun r hr => hs r (List.mem_cons_of_mem q hr)

/-- When every alternative answers, so do the ones that are left after a failure. -/
theorem answers_tryFarthest [Reaching ε] {others : List (Parser (List Char) Position ε α)}
    {worst : ε} (hs : ∀ q ∈ others, q.Answers n before ahead good bad) (hw : bad worst) :
    (⟨none, fun n s k => tryFarthest n s k worst others⟩ :
      Parser (List Char) Position ε α).Answers n before ahead good bad := by
  induction others generalizing worst with
  | nil => exact .inr ⟨worst, rfl, hw⟩
  | cons q others ih =>
    rcases hs q List.mem_cons_self with ⟨piece, rest, v, rfl, reads, hv⟩ | ⟨e, misses, he⟩
    · refine .inl ⟨piece, rest, v, rfl, ?_, hv⟩
      simp only [Reads, tryFarthest] at reads ⊢
      rw [reads]
    · have later :=
        ih (fun r hr => hs r (List.mem_cons_of_mem q hr)) (further_of_both hw he)
      refine later.congr ?_
      simp only [Misses, tryFarthest] at misses ⊢
      rw [misses]

theorem Answers.farthestOf [Reaching ε] {others : List (Parser (List Char) Position ε α)}
    (h : p.Answers n before ahead good bad)
    (hs : ∀ q ∈ others, q.Answers n before ahead good bad) :
    (farthestOf p others).Answers n before ahead good bad := by
  rcases h with ⟨piece, rest, v, split, reads, hv⟩ | ⟨e, misses, he⟩
  · exact .inl ⟨piece, rest, v, split, reads.farthestOf, hv⟩
  · refine (answers_tryFarthest hs he).congr ?_
    simp only [Misses, Parser.farthestOf] at misses ⊢
    rw [misses]

theorem fails_iff_answers :
    p.Fails n before ahead ↔ p.Answers n before ahead (fun _ _ _ => False) fun _ => True := by
  constructor
  · rintro ⟨e, he⟩
    exact .inr ⟨e, he, trivial⟩
  · rintro (⟨_, _, _, _, _, h⟩ | ⟨e, he, -⟩)
    · exact h.elim
    · exact ⟨e, he⟩

theorem Fails.farthestOf [Reaching ε] {others : List (Parser (List Char) Position ε α)}
    (h : p.Fails n before ahead) (hs : ∀ q ∈ others, q.Fails n before ahead) :
    (farthestOf p others).Fails n before ahead :=
  fails_iff_answers.mpr ((fails_iff_answers.mp h).farthestOf fun q hq =>
    fails_iff_answers.mp (hs q hq))

end Reckoner.Parser
