import Reckoner.Proofs.Parser.Reads

/-!
# Rows of pieces

A repetition reads a row: pieces one after the other, up to a place where its parser fails. A parser
of one character reads the longest row of characters that it accepts. A repetition takes a turn for
each piece, so a parser that moves on with each piece has enough turns when there are more of them
than characters ahead.
-/

namespace Reckoner.Parser

variable {ε α β : Type}

/-- `p` reads the pieces of `row` one after the other, with the values `vs`, and fails after
them. -/
inductive ReadsRow (p : Parser (List Char) Position ε α) (n : Nat) (rest : List Char) :
    List Char → List Char → List α → Prop
  | stop {before : List Char} : p.Fails n before rest → ReadsRow p n rest before [] []
  | next {before piece row : List Char} {v : α} {vs : List α} :
      p.Reads n before piece (row ++ rest) v → ReadsRow p n rest (before ++ piece) row vs →
      ReadsRow p n rest before (piece ++ row) (v :: vs)

/-- Pieces one after the other, one for each value. -/
inductive Row (each : List Char → α → Prop) : List Char → List α → Prop
  | nil : Row each [] []
  | cons {piece row : List Char} {v : α} {vs : List α} :
      each piece v → Row each row vs → Row each (piece ++ row) (v :: vs)

variable {p : Parser (List Char) Position ε α} {n : Nat} {before ahead piece row rest : List Char}
  {v : α} {vs : List α} {bad : ε → Prop} {each : List Char → α → Prop}

/-! ## Repetitions -/

theorem ReadsRow.repeated (h : p.ReadsRow n rest before row vs) {turns : Nat}
    (enough : vs.length < turns) :
    p.repeated n turns (before ++ (row ++ rest)) (Position.start.after before) =
      .success vs (before ++ (row ++ rest)) (Position.start.after (before ++ row)) := by
  induction h generalizing turns with
  | stop fails =>
    obtain ⟨e, misses⟩ := fails
    obtain ⟨turns, rfl⟩ := Nat.exists_eq_add_of_lt enough
    simp only [Misses] at misses
    simp [Parser.repeated, misses]
  | @next before piece row v vs reads _ ih =>
    obtain ⟨turns, rfl⟩ := Nat.exists_eq_add_of_lt enough
    have later := @ih (vs.length + 1 + turns) (by omega)
    simp only [Reads, List.append_assoc] at reads later ⊢
    rw [Parser.repeated, reads]
    simp only
    rw [List.length_cons, later]
    rfl

theorem Reads.many1 (h : p.Reads n before piece (row ++ rest) v)
    (hs : p.ReadsRow n rest (before ++ piece) row vs) (enough : vs.length < n) :
    p.many1.Reads n before (piece ++ row) rest (v :: vs) := by
  have later := hs.repeated enough
  simp only [Reads, Parser.many1, List.append_assoc] at h later ⊢
  rw [h]
  simp only
  rw [later]
  rfl

theorem Misses.many1 {e : ε} (h : p.Misses n before ahead e) : p.many1.Misses n before ahead e := by
  simp only [Misses, Parser.many1] at h ⊢
  rw [h]

theorem Fails.many1 (h : p.Fails n before ahead) : p.many1.Fails n before ahead :=
  let ⟨e, he⟩ := h
  ⟨e, he.many1⟩

theorem ReadsRow.many (h : p.ReadsRow n rest before row vs) (enough : vs.length ≤ n) :
    p.many.Reads n before row rest vs := by
  cases h with
  | stop fails => exact Fails.orElse_reads fails.many1 reads_pure
  | next reads later => exact (reads.many1 later enough).orElse

/-- A parser that answers everywhere ahead and moves on with each piece reads a row. -/
theorem exists_readsRow (moves : ∀ s v, each s v → s ≠ [])
    (h : ∀ a b, ahead = a ++ b → p.Answers n (before ++ a) b (fun s _ v => each s v) bad) :
    ∃ row rest vs, ahead = row ++ rest ∧ p.ReadsRow n rest before row vs ∧ Row each row vs ∧
      vs.length ≤ row.length := by
  -- each piece takes something from what is ahead, so what is left is shorter
  induction hl : ahead.length using Nat.strong_induction_on generalizing before ahead with
  | _ l ih =>
    have first := h [] ahead rfl
    rw [List.append_nil] at first
    rcases first with ⟨s, ahead', v, rfl, reads, hs⟩ | ⟨e, misses, -⟩
    · have pos : 0 < s.length := List.length_pos_iff.mpr (moves s v hs)
      have shorter : ahead'.length < l := by
        rw [← hl, List.length_append]
        omega
      obtain ⟨row, rest, vs, rfl, readsRow, hrow, count⟩ :=
        @ih ahead'.length shorter (before ++ s) ahead' (by
          intro a b hab
          rw [List.append_assoc]
          exact h (s ++ a) b (by rw [hab, List.append_assoc])) rfl
      refine ⟨s ++ row, rest, v :: vs, (List.append_assoc ..).symm, .next reads readsRow,
        .cons hs hrow, ?_⟩
      rw [List.length_cons, List.length_append]
      omega
    · exact ⟨[], ahead, [], rfl, .stop ⟨e, misses⟩, .nil, Nat.le_refl _⟩

theorem answers_many {bad' : ε → Prop} (moves : ∀ s v, each s v → s ≠ [])
    (enough : ahead.length < n)
    (h : ∀ a b, ahead = a ++ b → p.Answers n (before ++ a) b (fun s _ v => each s v) bad) :
    p.many.Answers n before ahead (fun row _ vs => Row each row vs) bad' := by
  obtain ⟨row, rest, vs, rfl, readsRow, hrow, count⟩ := exists_readsRow moves h
  rw [List.length_append] at enough
  exact (readsRow.many (by omega)).answers hrow

/-! ## Single characters -/

/-- `p` reads one character that `accepts` admits, and fails before any other. -/
structure ReadsChar (p : Parser (List Char) Position ε Char) (accepts : Char → Bool) : Prop where
  reads : ∀ {n before c rest}, accepts c = true → p.Reads n before [c] rest c
  fails : ∀ {n before ahead}, (∀ c ∈ ahead.head?, accepts c = false) → p.Fails n before ahead

namespace ReadsChar

variable {p : Parser (List Char) Position ε Char} {accepts : Char → Bool} {s : List Char}

theorem mapError {φ : Type} (f : ε → φ) (h : p.ReadsChar accepts) :
    (p.mapError f).ReadsChar accepts :=
  ⟨fun hc => (h.reads hc).mapError f, fun hc => (h.fails hc).mapError f⟩

theorem orElse {q : Parser (List Char) Position ε Char} {accepts' : Char → Bool}
    (h : p.ReadsChar accepts) (hq : q.ReadsChar accepts') :
    (p.orElse q).ReadsChar fun c => accepts c || accepts' c := by
  constructor
  · intro n before c rest hc
    by_cases first : accepts c = true
    · exact (h.reads first).orElse
    · refine (h.fails ?_).orElse_reads (hq.reads ?_)
      · intro d hd
        obtain rfl : c = d := by simpa using hd
        simpa using first
      · simpa [first] using hc
  · intro n before ahead hc
    refine (h.fails fun c hd => ?_).orElse (hq.fails fun c hd => ?_)
    · exact (Bool.or_eq_false_iff.mp (hc c hd)).1
    · exact (Bool.or_eq_false_iff.mp (hc c hd)).2

theorem answers (h : p.ReadsChar accepts) :
    p.Answers n before ahead (fun s _ c => s = [c] ∧ accepts c = true) fun _ => True := by
  cases ahead with
  | nil =>
    obtain ⟨e, he⟩ : p.Fails n before [] := h.fails (by simp)
    exact .inr ⟨e, he, trivial⟩
  | cons c rest =>
    by_cases hc : accepts c = true
    · exact (h.reads hc).answers ⟨rfl, hc⟩
    · obtain ⟨e, he⟩ : p.Fails n before (c :: rest) := h.fails (by simpa using hc)
      exact .inr ⟨e, he, trivial⟩

theorem readsRow (h : p.ReadsChar accepts) (hs : ∀ c ∈ s, accepts c = true)
    (stops : ∀ c ∈ rest.head?, accepts c = false) : p.ReadsRow n rest before s s := by
  induction s generalizing before with
  | nil => exact .stop (h.fails stops)
  | cons c s ih =>
    have later := @ih (before ++ [c]) fun d hd => hs d (List.mem_cons_of_mem c hd)
    exact .next (h.reads (hs c List.mem_cons_self)) later

theorem many (h : p.ReadsChar accepts) (hs : ∀ c ∈ s, accepts c = true)
    (stops : ∀ c ∈ rest.head?, accepts c = false) (enough : s.length ≤ n) :
    p.many.Reads n before s rest s :=
  (h.readsRow hs stops).many enough

theorem many1 (h : p.ReadsChar accepts) (some : s ≠ []) (hs : ∀ c ∈ s, accepts c = true)
    (stops : ∀ c ∈ rest.head?, accepts c = false) (enough : s.length ≤ n) :
    p.many1.Reads n before s rest s := by
  obtain ⟨c, s, rfl⟩ := List.exists_cons_of_ne_nil some
  have later : p.ReadsRow n rest (before ++ [c]) s s :=
    h.readsRow (fun d hd => hs d (List.mem_cons_of_mem c hd)) stops
  exact (h.reads (hs c List.mem_cons_self)).many1 later enough

end ReadsChar

/-- The characters up to the first that is not accepted, and the rest. -/
theorem exists_span (accepts : Char → Bool) (ahead : List Char) :
    ∃ s rest, ahead = s ++ rest ∧ (∀ c ∈ s, accepts c = true) ∧
      ∀ c ∈ rest.head?, accepts c = false := by
  refine ⟨ahead.takeWhile accepts, ahead.dropWhile accepts, List.takeWhile_append_dropWhile.symm,
    fun c hc => List.mem_takeWhile_imp hc, ?_⟩
  intro c hc
  have := List.head?_dropWhile_not accepts ahead
  rw [Option.mem_def.mp hc] at this
  simpa using this

namespace ReadsChar

variable {p : Parser (List Char) Position ε Char} {accepts : Char → Bool}

/-- A repetition reads as many characters as are accepted. -/
theorem answers_many (h : p.ReadsChar accepts) (enough : ahead.length ≤ n) :
    p.many.Answers n before ahead
      (fun s rest vs => vs = s ∧ (∀ c ∈ s, accepts c = true) ∧ ∀ c ∈ rest.head?, accepts c = false)
      bad := by
  obtain ⟨s, rest, rfl, hs, stops⟩ := exists_span accepts ahead
  rw [List.length_append] at enough
  exact (h.many hs stops (by omega)).answers ⟨rfl, hs, stops⟩

theorem answers_many1 (h : p.ReadsChar accepts) (enough : ahead.length ≤ n) :
    p.many1.Answers n before ahead
      (fun s rest vs => vs = s ∧ s ≠ [] ∧ (∀ c ∈ s, accepts c = true) ∧
        ∀ c ∈ rest.head?, accepts c = false)
      fun _ => ∀ c ∈ ahead.head?, accepts c = false := by
  obtain ⟨s, rest, rfl, hs, stops⟩ := exists_span accepts ahead
  rw [List.length_append] at enough
  by_cases some : s = []
  · subst some
    obtain ⟨e, he⟩ : p.Fails n before rest := h.fails stops
    exact .inr ⟨e, he.many1, stops⟩
  · exact (h.many1 some hs stops (by omega)).answers ⟨rfl, some, hs, stops⟩

end ReadsChar

end Reckoner.Parser
