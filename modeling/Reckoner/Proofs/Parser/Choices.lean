import Mathlib.Data.List.Forall2
import Reckoner.Proofs.Parser.Laws

/-!
# Choices compared

The two choices from a list agree while an alternative is left that does not fail: both answer what
the first such alternative answers on the given input and context. They differ in what they report
when all alternatives fail. A choice by order reports the last error. A choice by reach reports the
first of the errors that got furthest (`FirstFarthest`), on the input and context it was given.

An error that has no place counts as met at the index `-1`. That is below every index of a text, but
not below the indices that a caller may make up before the text (`choices_before_text`).
-/

namespace Reckoner.Parser

variable {ι κ ε α : Type}

/-- `p` fails with `e`, whatever it gives back. -/
def FailsWith (p : Parser ι κ ε α) (n : Nat) (s : ι) (k : κ) (e : ε) : Prop :=
  ∃ t c, p.parse n s k = .failure e t c

/-- `p` fails, whatever the error. -/
def FailsAt (p : Parser ι κ ε α) (n : Nat) (s : ι) (k : κ) : Prop :=
  ∃ e, p.FailsWith n s k e

/-- `q` is the first of the alternatives that does not fail. -/
def FirstStanding (ps : List (Parser ι κ ε α)) (n : Nat) (s : ι) (k : κ) (q : Parser ι κ ε α) :
    Prop :=
  ∃ before after, ps = before ++ q :: after ∧ (∀ r ∈ before, r.FailsAt n s k) ∧ ¬ q.FailsAt n s k

variable {p q : Parser ι κ ε α} {ps others : List (Parser ι κ ε α)} {n : Nat} {s t : ι} {k c : κ}
  {v : α} {e : ε} {es : List ε}

theorem success_or_halted (stands : ¬ p.FailsAt n s k) :
    (∃ v t c, p.parse n s k = .success v t c) ∨ ∃ cause, p.parse n s k = .halted cause := by
  cases run : p.parse n s k with
  | success v t c => exact .inl ⟨v, t, c, rfl⟩
  | failure e t c => exact absurd ⟨e, t, c, run⟩ stands
  | halted cause => exact .inr ⟨cause, rfl⟩

theorem FirstStanding.head (stands : ¬ p.FailsAt n s k) : FirstStanding (p :: ps) n s k p :=
  ⟨[], ps, rfl, nofun, stands⟩

theorem FirstStanding.tail (fails : p.FailsAt n s k) (h : FirstStanding ps n s k q) :
    FirstStanding (p :: ps) n s k q := by
  obtain ⟨before, after, rfl, failing, stands⟩ := h
  exact ⟨p :: before, after, rfl, List.forall_mem_cons.mpr ⟨fails, failing⟩, stands⟩

/-- The first alternative stands, or it fails and another one is the first that does not. -/
theorem FirstStanding.cases (h : FirstStanding (p :: ps) n s k q) :
    (q = p ∧ ¬ p.FailsAt n s k) ∨ (p.FailsAt n s k ∧ FirstStanding ps n s k q) := by
  obtain ⟨before, after, split, failing, stands⟩ := h
  cases before with
  | nil =>
    obtain ⟨rfl, -⟩ := List.cons.inj split
    exact .inl ⟨rfl, stands⟩
  | cons r before =>
    obtain ⟨rfl, rfl⟩ := List.cons.inj split
    obtain ⟨fails, failing⟩ := List.forall_mem_cons.mp failing
    exact .inr ⟨fails, before, after, rfl, failing, stands⟩

theorem firstOf_cons (p q : Parser ι κ ε α) (others : List (Parser ι κ ε α)) :
    firstOf p (q :: others) = p.orElse (firstOf q others) := by
  induction others generalizing q with
  | nil => rfl
  | cons r others ih =>
    calc firstOf p (q :: r :: others)
        = firstOf ((p.orElse q).orElse r) others := rfl
      _ = firstOf p (q.orElse r :: others) := by rw [orElse_assoc]; rfl
      _ = p.orElse (firstOf q (r :: others)) := ih (q.orElse r)

theorem parse_orElse_of_fails (fails : p.FailsAt n s k) :
    (p.orElse q).parse n s k = q.parse n s k := by
  obtain ⟨e, t, c, run⟩ := fails
  simp only [orElse, run]

theorem FailsWith.firstOf (first : p.FailsWith n s k e)
    (h : List.Forall₂ (fun q e => q.FailsWith n s k e) others es) :
    (firstOf p others).FailsWith n s k ((e :: es).getLast (List.cons_ne_nil e es)) := by
  induction h generalizing p e with
  | nil => exact first
  | @cons q e' others es second _ ih =>
    obtain ⟨t, c, run⟩ := ih second
    refine ⟨t, c, ?_⟩
    rw [firstOf_cons, parse_orElse_of_fails ⟨e, first⟩, List.getLast_cons (List.cons_ne_nil e' es)]
    exact run

/-! ## Choices by reach -/

section Reach

variable [Reaching ε] {worst : ε}

theorem FirstStanding.tryFarthest (h : FirstStanding ps n s k q) :
    tryFarthest n s k worst ps = q.parse n s k := by
  induction ps generalizing worst with
  | nil =>
    obtain ⟨before, after, split, -⟩ := h
    cases before <;> cases split
  | cons p ps ih =>
    unfold Parser.tryFarthest
    rcases h.cases with ⟨rfl, stands⟩ | ⟨⟨e, t, c, run⟩, later⟩
    · rcases success_or_halted stands with ⟨v, t, c, run⟩ | ⟨cause, run⟩
      · rw [run]
      · rw [run]
    · rw [run]
      exact ih later

theorem tryFarthest_of_fails (h : List.Forall₂ (fun q e => q.FailsWith n s k e) ps es) :
    tryFarthest n s k worst ps = .failure (es.foldl further worst) s k := by
  induction h generalizing worst with
  | nil => rfl
  | cons fails _ ih =>
    obtain ⟨t, c, run⟩ := fails
    unfold tryFarthest
    rw [run]
    exact ih

theorem FailsWith.farthestOf [Placed κ] (first : p.FailsWith n s k e)
    (h : List.Forall₂ (fun q e => q.FailsWith n s k e) others es) :
    (farthestOf p others).parse n s k = .failure (es.foldl further e) s k := by
  obtain ⟨t, c, run⟩ := first
  unfold Parser.farthestOf
  dsimp only
  rw [run]
  exact tryFarthest_of_fails h

/-- `e` is the first of the errors that got furthest: those before it did not get so far, and those
after it no further. -/
def FirstFarthest (es : List ε) (e : ε) : Prop :=
  ∃ before after, es = before ++ e :: after ∧
    (∀ d ∈ before, Reaching.reach d < Reaching.reach e) ∧
    ∀ d ∈ after, Reaching.reach d ≤ Reaching.reach e

variable {a b : ε}

theorem FirstFarthest.le (h : FirstFarthest es e) (mem : a ∈ es) :
    Reaching.reach a ≤ Reaching.reach e := by
  obtain ⟨before, after, rfl, nearer, notFurther⟩ := h
  rcases List.mem_append.mp mem with mem | mem
  · exact Int.le_of_lt (nearer a mem)
  · rcases List.mem_cons.mp mem with rfl | mem
    · exact Int.le_refl _
    · exact notFurther a mem

/-- An error that does not get so far can be put in front. -/
theorem FirstFarthest.cons (h : FirstFarthest es e) (less : Reaching.reach a < Reaching.reach e) :
    FirstFarthest (a :: es) e := by
  obtain ⟨before, after, rfl, nearer, notFurther⟩ := h
  exact ⟨a :: before, after, rfl, List.forall_mem_cons.mpr ⟨less, nearer⟩, notFurther⟩

/-- An error that gets no further than the one before it can be put behind that. -/
theorem FirstFarthest.insert (h : FirstFarthest (a :: es) e)
    (le : Reaching.reach b ≤ Reaching.reach a) : FirstFarthest (a :: b :: es) e := by
  obtain ⟨before, after, split, nearer, notFurther⟩ := h
  cases before with
  | nil =>
    obtain ⟨rfl, rfl⟩ := List.cons.inj split
    exact ⟨[], b :: es, rfl, nofun, List.forall_mem_cons.mpr ⟨le, notFurther⟩⟩
  | cons d before =>
    obtain ⟨rfl, rfl⟩ := List.cons.inj split
    obtain ⟨less, nearer⟩ := List.forall_mem_cons.mp nearer
    refine ⟨a :: b :: before, after, rfl, ?_, notFurther⟩
    exact List.forall_mem_cons.mpr
      ⟨less, List.forall_mem_cons.mpr ⟨Int.lt_of_le_of_lt le less, nearer⟩⟩

/-- Comparing the errors one by one finds the first of those that got furthest, provided that they
all tell something. -/
theorem firstFarthest_foldl (telling : ∀ d ∈ e :: es, Reaching.isNothing d = false) :
    FirstFarthest (e :: es) (es.foldl further e) := by
  induction es generalizing e with
  | nil => exact ⟨[], [], rfl, nofun, nofun⟩
  | cons d es ih =>
    obtain ⟨first, rest⟩ := List.forall_mem_cons.mp telling
    rw [List.foldl_cons, further, first, Bool.false_or]
    by_cases less : Reaching.reach e < Reaching.reach d
    · simp only [less, decide_true, if_true]
      have found := ih rest
      exact found.cons (Int.lt_of_lt_of_le less (found.le List.mem_cons_self))
    · simp only [less, decide_false, Bool.false_eq_true, if_false]
      have others := (List.forall_mem_cons.mp rest).2
      exact (ih (List.forall_mem_cons.mpr ⟨first, others⟩)).insert (Int.not_lt.mp less)

theorem FirstFarthest.mem (h : FirstFarthest es e) : e ∈ es := by
  obtain ⟨before, after, rfl, -⟩ := h
  exact List.mem_append_right before List.mem_cons_self

/-- An error that got further than all others is the one that is reported. -/
theorem FailsWith.farthestOf_eq [Placed κ] (first : p.FailsWith n s k a)
    (h : List.Forall₂ (fun q e => q.FailsWith n s k e) others es)
    (telling : ∀ d ∈ a :: es, Reaching.isNothing d = false) (mem : e ∈ a :: es)
    (furthest : ∀ d ∈ a :: es, d = e ∨ Reaching.reach d < Reaching.reach e) :
    (Parser.farthestOf p others).parse n s k = .failure e s k := by
  have reported := firstFarthest_foldl telling
  rw [first.farthestOf h]
  rcases furthest _ reported.mem with same | less
  · rw [same]
  · exact absurd (reported.le mem) (Int.not_le.mpr less)

end Reach

/-! ## The two choices -/

/-- Of two errors with places the one with the larger index got further. One without a place got
less far than one with a place if that is met at an index from 0 on, and not otherwise. -/
theorem reach_lt_iff {d e : TextError} {q : Position} (place : e.position? = some q) :
    (∀ p, d.position? = some p → (Reaching.reach d < Reaching.reach e ↔ p.index < q.index)) ∧
      (d.position? = none → (Reaching.reach d < Reaching.reach e ↔ 0 ≤ q.index)) := by
  have later : Reaching.reach e = q.index := by simp only [Reaching.reach, place]
  constructor
  · intro p placed
    simp only [Reaching.reach, placed, place]
  · intro unplaced
    have earlier : Reaching.reach d = -1 := by simp only [Reaching.reach, unplaced]
    rw [earlier, later]
    omega

end Reckoner.Parser
