import Reckoner.Parser.Recursion
import Reckoner.Parser.Text

/-!
# Failing where one started

A parser reverts when its failures give back the input and context that it was given. No type sees
to that: a base parser may fail anywhere. Sequences, filters, repetitions and choices by reach
revert whatever their parts do; `map`, `mapError` and `defer` pass on what their part answered, and
a choice passes on what its last alternative answered. So the parsers that are built from the
primitives of texts revert, recursive rules included: a rule is assumed to revert inside its own
body, and reverts at every depth of its unfolding.
-/

namespace Reckoner

variable {ι κ ε φ α β : Type}

/-- A reply that is a failure gives back an input and a context. -/
def Reply.GivesBack (s : ι) (k : κ) : Reply ι κ ε α → Prop
  | .failure _ s' k' => s' = s ∧ k' = k
  | _ => True

theorem Reply.givesBack_map (f : α → β) {r : Reply ι κ ε α} {s : ι} {k : κ} :
    (r.map f).GivesBack s k ↔ r.GivesBack s k := by
  cases r <;> rfl

namespace Parser

/-- If a run of `p` fails, it gives back the input and context it was given. -/
def RevertsAt (p : Parser ι κ ε α) (n : Nat) (s : ι) (k : κ) : Prop :=
  (p.parse n s k).GivesBack s k

/-- Every failing run of `p` gives back the input and context it was given. -/
def Reverts (p : Parser ι κ ε α) : Prop :=
  ∀ n s k, p.RevertsAt n s k

variable {p : Parser ι κ ε α} {n : Nat} {s : ι} {k : κ}

/-! ## Parsers that pass on what their part answers -/

theorem reverts_pure (v : α) : (pure v : Parser ι κ ε α).Reverts := fun _ _ _ => trivial

theorem reverts_fail (e : ε) : (fail e : Parser ι κ ε α).Reverts := fun _ _ _ => ⟨rfl, rfl⟩

theorem revertsAt_map (f : α → β) : (p.map f).RevertsAt n s k ↔ p.RevertsAt n s k :=
  Reply.givesBack_map f

theorem revertsAt_mapError (f : ε → φ) : (p.mapError f).RevertsAt n s k ↔ p.RevertsAt n s k := by
  unfold RevertsAt mapError
  dsimp only
  cases p.parse n s k <;> rfl

theorem revertsAt_defer [Inhabited κ] (provider : Unit → Parser ι κ ε α) :
    (defer provider).RevertsAt n s k ↔ (provider ()).RevertsAt n s k :=
  Iff.rfl

/-! ## Parsers that revert whatever their parts do -/

theorem reverts_bind (p : Parser ι κ ε α) (f : α → Parser ι κ ε β) : (p.bind f).Reverts := by
  intro n s k
  unfold RevertsAt bind
  dsimp only
  split
  · split
    · trivial
    · exact ⟨rfl, rfl⟩
    · trivial
  · exact ⟨rfl, rfl⟩
  · trivial

theorem reverts_both (p : Parser ι κ ε α) (q : Parser ι κ ε β) : (p.both q).Reverts :=
  reverts_bind _ _

theorem reverts_seqLeft (p : Parser ι κ ε α) (q : Parser ι κ ε β) : (p.seqLeft q).Reverts :=
  reverts_bind _ _

theorem reverts_seqRight (p : Parser ι κ ε α) (q : Parser ι κ ε β) : (p.seqRight q).Reverts :=
  reverts_bind _ _

theorem reverts_filter (p : Parser ι κ ε α) (accepts : α → Bool) (error : α → ε) :
    (p.filter accepts error).Reverts := by
  intro n s k
  unfold RevertsAt filter
  dsimp only
  split
  · split
    · trivial
    · exact ⟨rfl, rfl⟩
  · exact ⟨rfl, rfl⟩
  · trivial

theorem reverts_mapContext (p : Parser ι κ ε α) (f : κ → κ) : (p.mapContext f).Reverts := by
  intro n s k
  unfold RevertsAt mapContext
  dsimp only
  split
  · trivial
  · exact ⟨rfl, rfl⟩
  · trivial

/-- A repetition that has begun does not fail, so what it would give back does not matter. -/
theorem givesBack_repeated (p : Parser ι κ ε α) (fuel turns : Nat) (s s' : ι) (k k' : κ) :
    (p.repeated fuel turns s k).GivesBack s' k' := by
  induction turns generalizing s k with
  | zero => trivial
  | succ turns ih =>
    unfold repeated
    split
    · exact (Reply.givesBack_map _).mpr (ih _ _)
    · trivial
    · trivial

theorem reverts_many1 (p : Parser ι κ ε α) : p.many1.Reverts := by
  intro n s k
  unfold RevertsAt many1
  dsimp only
  split
  · exact (Reply.givesBack_map _).mpr (givesBack_repeated p n n _ s _ k)
  · exact ⟨rfl, rfl⟩
  · trivial

theorem givesBack_tryFarthest [Reaching ε] (others : List (Parser ι κ ε α)) (worst : ε) :
    (tryFarthest n s k worst others).GivesBack s k := by
  induction others generalizing worst with
  | nil => exact ⟨rfl, rfl⟩
  | cons q others ih =>
    unfold tryFarthest
    split
    · trivial
    · exact ih _
    · trivial

theorem reverts_farthestOf [Placed κ] [Reaching ε] (p : Parser ι κ ε α)
    (others : List (Parser ι κ ε α)) : (farthestOf p others).Reverts := by
  intro n s k
  unfold RevertsAt farthestOf
  dsimp only
  split
  · trivial
  · exact givesBack_tryFarthest others _
  · trivial

theorem reverts_foldl_bind (f : Parser ι κ ε β → α → Parser ι κ ε β) (xs : List α)
    (hf : ∀ q x, (f q x).Reverts) {q : Parser ι κ ε β} (hq : q.Reverts) :
    (xs.foldl f q).Reverts := by
  induction xs generalizing q with
  | nil => exact hq
  | cons x xs ih => exact ih (hf q x)

theorem reverts_sequence_two (p q : Parser ι κ ε α) (ps : List (Parser ι κ ε α)) :
    (sequence (p :: q :: ps)).Reverts :=
  reverts_foldl_bind _ ps (fun _ _ => reverts_bind _ _) (reverts_bind _ _)

/-! ## Choices -/

theorem RevertsAt.orElse (p : Parser ι κ ε α) {q : Parser ι κ φ α} (h : q.RevertsAt n s k) :
    (p.orElse q).RevertsAt n s k := by
  unfold RevertsAt Parser.orElse
  dsimp only
  split
  · trivial
  · exact h
  · trivial

theorem RevertsAt.firstOf (p : Parser ι κ ε α) (others : List (Parser ι κ ε α))
    (h : ((p :: others).getLast (List.cons_ne_nil p others)).RevertsAt n s k) :
    (firstOf p others).RevertsAt n s k := by
  induction others generalizing p with
  | nil => exact h
  | cons q others ih =>
    refine ih (p.orElse q) ?_
    cases others with
    | nil => exact h.orElse p
    | cons r others => exact h

theorem reverts_orDefault (p : Parser ι κ ε α) (v : α) : (p.orDefault v).Reverts := fun n s k =>
  (reverts_pure v n s k).orElse p

theorem reverts_many (p : Parser ι κ ε α) : p.many.Reverts := fun n s k =>
  (reverts_pure [] n s k).orElse p.many1

theorem reverts_sepBy (p : Parser ι κ ε α) (separator : Parser ι κ ε β) :
    (sepBy p separator).Reverts := fun n s k =>
  (reverts_pure [] n s k).orElse _

end Parser

end Reckoner
