import Reckoner.Proofs.Parser.Laws
import Reckoner.Proofs.Parser.Repeating

/-!
# Sequences

A sequence is put together from the left: each parser is bound behind all that come before it and
adds its value at the end of theirs. It means what it would mean put together from the right, the
first parser and then the sequence of the others with the first value in front, and so it can be cut
between any two of its parsers.

`InTurn` runs parsers one after the other, each from the state that the one before it answered. A
sequence succeeds just when such a run does, with its values and its last state, and stops at the
first parser that does not succeed, with the error of that parser or the cause of its halt.
-/

namespace Reckoner

variable {ι κ ε α β γ : Type}

/-- Why a reply gives no value: its error, or the cause of its halt. -/
def Reply.stop? : Reply ι κ ε α → Option (ε ⊕ Halt)
  | .success _ _ _ => none
  | .failure e _ _ => some (.inl e)
  | .halted cause => some (.inr cause)

namespace Reply

variable {r : Reply ι κ ε α}

theorem stop?_eq_inl {e : ε} : r.stop? = some (.inl e) ↔ ∃ t c, r = .failure e t c := by
  cases r <;> simp [stop?]

theorem stop?_eq_inr {cause : Halt} : r.stop? = some (.inr cause) ↔ r = .halted cause := by
  cases r <;> simp [stop?]

theorem stop?_map (f : α → β) : (r.map f).stop? = r.stop? := by
  cases r <;> rfl

theorem stop?_backTo (s : ι) (k : κ) : (r.backTo s k).stop? = r.stop? := by
  cases r <;> rfl

theorem backTo_eq_success {s t : ι} {k c : κ} {v : α} :
    r.backTo s k = .success v t c ↔ r = .success v t c := by
  cases r <;> simp [backTo]

theorem map_eq_success {f : α → β} {w : β} {t : ι} {c : κ} :
    r.map f = .success w t c ↔ ∃ v, r = .success v t c ∧ f v = w := by
  cases r with
  | success v s k =>
    simp only [map, success.injEq]
    constructor
    · rintro ⟨rfl, rfl, rfl⟩
      exact ⟨v, ⟨rfl, rfl, rfl⟩, rfl⟩
    · rintro ⟨_, ⟨rfl, rfl, rfl⟩, rfl⟩
      exact ⟨rfl, rfl, rfl⟩
  | failure | halted => simp [map]

end Reply

namespace Parser

variable {p : Parser ι κ ε α} {ps : List (Parser ι κ ε α)} {n : Nat} {s s' t : ι} {k k' c : κ}
  {v : α} {vs : List α} {x : ε ⊕ Halt}

/-! ## One parser after another -/

theorem parse_bind_of_success {f : α → Parser ι κ ε β} (run : p.parse n s k = .success v s' k') :
    (p.bind f).parse n s k = ((f v).parse n s' k').backTo s k := by
  unfold bind
  dsimp only
  rw [run]
  dsimp only
  cases (f v).parse n s' k' <;> rfl

theorem stop?_bind_of_stop {f : α → Parser ι κ ε β} (stops : (p.parse n s k).stop? = some x) :
    ((p.bind f).parse n s k).stop? = some x := by
  unfold bind
  dsimp only
  cases run : p.parse n s k <;> rw [run] at stops
  case success => cases stops
  all_goals exact stops

theorem parse_bind_eq_success {f : α → Parser ι κ ε β} {w : β} :
    (p.bind f).parse n s k = .success w t c ↔
      ∃ v s' k', p.parse n s k = .success v s' k' ∧ (f v).parse n s' k' = .success w t c := by
  constructor
  · intro run
    cases first : p.parse n s k with
    | success v s' k' =>
      rw [parse_bind_of_success first, Reply.backTo_eq_success] at run
      exact ⟨v, s', k', rfl, run⟩
    | failure | halted =>
      simp only [bind, first] at run
      cases run
  · rintro ⟨v, s', k', first, later⟩
    rw [parse_bind_of_success first, later]
    rfl

theorem stop?_bind {f : α → Parser ι κ ε β} :
    ((p.bind f).parse n s k).stop? = some x ↔
      (p.parse n s k).stop? = some x ∨
        ∃ v s' k', p.parse n s k = .success v s' k' ∧ ((f v).parse n s' k').stop? = some x := by
  constructor
  · intro stops
    cases first : p.parse n s k with
    | success v s' k' =>
      rw [parse_bind_of_success first, Reply.stop?_backTo] at stops
      exact .inr ⟨v, s', k', rfl, stops⟩
    | failure | halted =>
      simp only [bind, first] at stops
      exact .inl stops
  · rintro (stops | ⟨v, s', k', first, later⟩)
    · exact stop?_bind_of_stop stops
    · rw [parse_bind_of_success first, Reply.stop?_backTo]
      exact later

/-! ## Sequences from the right -/

/-- The parser that a sequence comes to when one more parser is bound behind it. -/
def andThen (done : Parser ι κ ε (List α)) (q : Parser ι κ ε α) : Parser ι κ ε (List α) :=
  done.bind fun vs => q.map fun v => vs ++ [v]

/-- What is done before the first parser of a sequence can be done before all of it. -/
theorem foldl_bind_append (done q : Parser ι κ ε (List α)) (qs : List (Parser ι κ ε α)) :
    qs.foldl andThen (done.bind fun xs => q.map fun ys => xs ++ ys) =
      done.bind fun xs => (qs.foldl andThen q).map fun ys => xs ++ ys := by
  induction qs generalizing q with
  | nil => rfl
  | cons r qs ih =>
    have onto : andThen (done.bind fun xs => q.map fun ys => xs ++ ys) r =
        done.bind fun xs => (andThen q r).map fun ys => xs ++ ys := by
      unfold andThen
      rw [bind_assoc]
      simp only [map_bind, bind_map, map_map, List.append_assoc]
    rw [List.foldl_cons, onto, ih, List.foldl_cons]

/-- A sequence cut in two. -/
theorem sequence_append (p q : Parser ι κ ε α) (ps qs : List (Parser ι κ ε α)) :
    sequence (p :: ps ++ q :: qs) =
      (sequence (p :: ps)).bind fun xs => (sequence (q :: qs)).map fun ys => xs ++ ys := by
  have behind : andThen (sequence (p :: ps)) q =
      (sequence (p :: ps)).bind fun xs => (q.map fun v => [v]).map fun ys => xs ++ ys := by
    unfold andThen
    simp only [map_map]
  calc sequence (p :: ps ++ q :: qs)
      = qs.foldl andThen (andThen (sequence (p :: ps)) q) := List.foldl_append ..
    _ = (sequence (p :: ps)).bind fun xs => (sequence (q :: qs)).map fun ys => xs ++ ys := by
        rw [behind]
        exact foldl_bind_append ..

theorem sequence_singleton (p : Parser ι κ ε α) : sequence [p] = p.map fun v => [v] :=
  rfl

theorem sequence_cons_cons (p q : Parser ι κ ε α) (ps : List (Parser ι κ ε α)) :
    sequence (p :: q :: ps) = p.bind fun v => (sequence (q :: ps)).map fun vs => v :: vs := by
  rw [← List.singleton_append, sequence_append, sequence_singleton, map_bind]
  rfl

/-! ## Runs of a sequence -/

/-- The parsers succeed one after the other, each from the state that the one before it answered,
with the listed values. -/
inductive InTurn (n : Nat) : List (Parser ι κ ε α) → ι → κ → List α → ι → κ → Prop
  | nil (s : ι) (k : κ) : InTurn n [] s k [] s k
  | cons {p : Parser ι κ ε α} {ps : List (Parser ι κ ε α)} {s s' s'' : ι} {k k' k'' : κ} {v : α}
      {vs : List α} :
      p.parse n s k = .success v s' k' → InTurn n ps s' k' vs s'' k'' →
      InTurn n (p :: ps) s k (v :: vs) s'' k''

theorem parse_sequence_cons_eq_success :
    (sequence (p :: ps)).parse n s k = .success vs t c ↔
      ∃ w s' k' ws, p.parse n s k = .success w s' k' ∧
        (sequence ps).parse n s' k' = .success ws t c ∧ w :: ws = vs := by
  cases ps with
  | nil =>
    rw [sequence_singleton]
    show Reply.map _ _ = _ ↔ _
    rw [Reply.map_eq_success]
    constructor
    · rintro ⟨w, run, rfl⟩
      exact ⟨w, t, c, [], run, rfl, rfl⟩
    · rintro ⟨w, s', k', ws, run, last, rfl⟩
      cases last
      exact ⟨w, run, rfl⟩
  | cons q ps =>
    rw [sequence_cons_cons, parse_bind_eq_success]
    constructor
    · rintro ⟨w, s', k', run, later⟩
      obtain ⟨ws, found, rfl⟩ := Reply.map_eq_success.mp later
      exact ⟨w, s', k', ws, run, found, rfl⟩
    · rintro ⟨w, s', k', ws, run, later, rfl⟩
      exact ⟨w, s', k', run, Reply.map_eq_success.mpr ⟨ws, later, rfl⟩⟩

theorem stop?_sequence_cons :
    ((sequence (p :: ps)).parse n s k).stop? = some x ↔
      (p.parse n s k).stop? = some x ∨
        ∃ v s' k', p.parse n s k = .success v s' k' ∧
          ((sequence ps).parse n s' k').stop? = some x := by
  cases ps with
  | nil =>
    have last (s' : ι) (k' : κ) :
        ((sequence ([] : List (Parser ι κ ε α))).parse n s' k').stop? ≠ some x := nofun
    rw [sequence_singleton]
    show (Reply.map _ _).stop? = _ ↔ _
    rw [Reply.stop?_map]
    simp [last]
  | cons q ps =>
    rw [sequence_cons_cons, stop?_bind]
    show (_ ∨ ∃ v s' k', _ ∧ (Reply.map _ _).stop? = _) ↔ _
    simp only [Reply.stop?_map]

theorem parse_sequence_eq_success :
    (sequence ps).parse n s k = .success vs t c ↔ InTurn n ps s k vs t c := by
  induction ps generalizing s k vs with
  | nil =>
    constructor
    · intro run
      cases run
      exact .nil _ _
    · rintro ⟨⟩
      rfl
  | cons p ps ih =>
    rw [parse_sequence_cons_eq_success]
    constructor
    · rintro ⟨v, s', k', vs, run, later, rfl⟩
      exact .cons run (ih.mp later)
    · rintro (_ | ⟨run, later⟩)
      exact ⟨_, _, _, _, run, ih.mpr later, rfl⟩

/-- What stops a sequence is what stops the first parser that does not succeed. -/
theorem stop?_sequence :
    ((sequence ps).parse n s k).stop? = some x ↔
      ∃ before p after vs s' k', ps = before ++ p :: after ∧ InTurn n before s k vs s' k' ∧
        (p.parse n s' k').stop? = some x := by
  induction ps generalizing s k with
  | nil =>
    constructor
    · intro none
      cases none
    · rintro ⟨before, p, after, vs, s', k', split, -⟩
      cases before <;> cases split
  | cons p ps ih =>
    rw [stop?_sequence_cons]
    constructor
    · rintro (here | ⟨v, s', k', run, later⟩)
      · exact ⟨[], p, ps, [], s, k, rfl, .nil s k, here⟩
      · obtain ⟨before, q, after, vs, t, c, rfl, turns, stops⟩ := ih.mp later
        exact ⟨p :: before, q, after, v :: vs, t, c, rfl, .cons run turns, stops⟩
    · rintro ⟨before, q, after, vs, t, c, split, turns, stops⟩
      cases turns with
      | nil =>
        cases split
        exact .inl stops
      | cons run turns =>
        obtain ⟨rfl, rfl⟩ := List.cons.inj split
        exact .inr ⟨_, _, _, run, ih.mpr ⟨_, q, after, _, t, c, rfl, turns, stops⟩⟩

/-- A sequence runs its parsers in turn: it succeeds just when they all do, with their values at the
state where the last one ends, and otherwise it fails with the error of the first one that fails, or
halts where one halts. It can be cut anywhere: the two parts are run one after the other and their
lists are joined. -/
theorem sequence_in_turn :
    (∀ (ps : List (Parser ι κ ε α)) (n : Nat) (s : ι) (k : κ),
      (∀ vs s' k', (sequence ps).parse n s k = .success vs s' k' ↔ InTurn n ps s k vs s' k') ∧
      (∀ e, (∃ s' k', (sequence ps).parse n s k = .failure e s' k') ↔
        ∃ before p after vs s' k', ps = before ++ p :: after ∧ InTurn n before s k vs s' k' ∧
          ∃ t c, p.parse n s' k' = .failure e t c) ∧
      ∀ cause, (sequence ps).parse n s k = .halted cause ↔
        ∃ before p after vs s' k', ps = before ++ p :: after ∧ InTurn n before s k vs s' k' ∧
          p.parse n s' k' = .halted cause) ∧
    ∀ (p q : Parser ι κ ε α) (ps qs : List (Parser ι κ ε α)),
      sequence (p :: ps ++ q :: qs) =
        (sequence (p :: ps)).bind fun xs => (sequence (q :: qs)).map fun ys => xs ++ ys := by
  refine ⟨?runs, sequence_append⟩
  intro ps n s k
  refine ⟨?succeeds, ?fails, ?halts⟩
  case succeeds =>
    intro vs s' k'
    exact parse_sequence_eq_success
  case fails =>
    intro e
    simpa only [Reply.stop?_eq_inl] using stop?_sequence (x := .inl e)
  case halts =>
    intro cause
    simpa only [Reply.stop?_eq_inr] using stop?_sequence (x := .inr cause)

end Parser

end Reckoner
