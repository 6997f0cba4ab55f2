import Mathlib.Data.List.Forall2
import Reckoner.Parser.Recursion
import Reckoner.Parser.Text

/-!
# Fuel and replies

Running out of fuel is the one reply that says nothing. `Extends` compares two runs, of two parsers
with an amount of fuel each: the second one replies the same as the first one, unless the first one
ran out of fuel. Combinators carry this over from their parts, and a repetition may take more turns
when there is more fuel. So a rule keeps its replies when the fuel grows, and also when a rule that
it refers to is unfolded deeper.
-/

namespace Reckoner

variable {ι κ ε φ α β : Type}

/-- The second reply is the first one, or the first one is out of fuel. -/
inductive Reply.Extends : Reply ι κ ε α → Reply ι κ ε α → Prop
  | success (v : α) (rest : ι) (q : κ) : Extends (.success v rest q) (.success v rest q)
  | failure (e : ε) (rest : ι) (q : κ) : Extends (.failure e rest q) (.failure e rest q)
  | halted (cause : Halt) : Extends (.halted cause) (.halted cause)
  | outOfFuel (reply : Reply ι κ ε α) : Extends (.halted .outOfFuel) reply

namespace Reply.Extends

variable {r r' : Reply ι κ ε α}

theorem refl (r : Reply ι κ ε α) : r.Extends r := by
  cases r with
  | success v rest q => exact .success v rest q
  | failure e rest q => exact .failure e rest q
  | halted cause => exact .halted cause

theorem map (f : α → β) (h : r.Extends r') : (r.map f).Extends (r'.map f) := by
  cases h with
  | success v rest q => exact .success (f v) rest q
  | failure e rest q => exact .failure e rest q
  | halted cause => exact .halted cause
  | outOfFuel => exact .outOfFuel _

/-- A reply that is not out of fuel is extended by itself alone. -/
theorem eq (h : r.Extends r') (ends : r ≠ .halted .outOfFuel) : r' = r := by
  cases h with
  | success | failure | halted => rfl
  | outOfFuel => exact absurd rfl ends

theorem of_success {v : α} {rest : ι} {q : κ} (h : (Reply.success v rest q).Extends r) :
    r = .success v rest q := by
  cases h with
  | success => rfl

theorem of_failure {e : ε} {rest : ι} {q : κ} (h : (Reply.failure e rest q).Extends r) :
    r = .failure e rest q := by
  cases h with
  | failure => rfl

end Reply.Extends

namespace Parser

/-- The runs of `p'` with fuel `m` extend those of `p` with fuel `n`. -/
def Extends (p : Parser ι κ ε α) (n : Nat) (p' : Parser ι κ ε α) (m : Nat) : Prop :=
  ∀ s k, (p.parse n s k).Extends (p'.parse m s k)

variable {p p' : Parser ι κ ε α} {n m : Nat}

theorem extends_pure (v : α) : (pure v : Parser ι κ ε α).Extends n (pure v) m := fun _ _ => .refl _

theorem Extends.map (f : α → β) (h : p.Extends n p' m) : (p.map f).Extends n (p'.map f) m :=
  fun s k => (h s k).map f

theorem Extends.mapError (f : ε → φ) (h : p.Extends n p' m) :
    (p.mapError f).Extends n (p'.mapError f) m := by
  intro s k
  have run := h s k
  simp only [Parser.mapError]
  generalize p.parse n s k = reply at run ⊢
  generalize p'.parse m s k = reply' at run ⊢
  cases run with
  | success v s' k' => exact .success v s' k'
  | failure e s' k' => exact .failure (f e) s' k'
  | halted cause => exact .halted cause
  | outOfFuel => exact .outOfFuel _

/-! ## One parser after another -/

theorem Extends.bind {f f' : α → Parser ι κ ε β} (h : p.Extends n p' m)
    (hf : ∀ v, (f v).Extends n (f' v) m) : (p.bind f).Extends n (p'.bind f') m := by
  intro s k
  have run := h s k
  simp only [Parser.bind]
  generalize p.parse n s k = reply at run ⊢
  generalize p'.parse m s k = reply' at run ⊢
  cases run with
  | success v s' k' =>
    have later := hf v s' k'
    dsimp only
    generalize (f v).parse n s' k' = reply at later ⊢
    generalize (f' v).parse m s' k' = reply' at later ⊢
    cases later with
    | success w s'' k'' => exact .success w s'' k''
    | failure e s'' k'' => exact .failure e s k
    | halted cause => exact .halted cause
    | outOfFuel => exact .outOfFuel _
  | failure e s' k' => exact .failure e s k
  | halted cause => exact .halted cause
  | outOfFuel => exact .outOfFuel _

theorem Extends.seqRight {q q' : Parser ι κ ε β} (h : p.Extends n p' m) (hq : q.Extends n q' m) :
    (p.seqRight q).Extends n (p'.seqRight q') m :=
  h.bind fun _ => hq

theorem Extends.seqLeft {q q' : Parser ι κ ε β} (h : p.Extends n p' m) (hq : q.Extends n q' m) :
    (p.seqLeft q).Extends n (p'.seqLeft q') m :=
  h.bind fun _ => hq.map _

theorem Extends.both {q q' : Parser ι κ ε β} (h : p.Extends n p' m) (hq : q.Extends n q' m) :
    (p.both q).Extends n (p'.both q') m :=
  h.bind fun _ => hq.map _

/-! ## Choices -/

theorem Extends.orElse {q q' : Parser ι κ φ α} (h : p.Extends n p' m) (hq : q.Extends n q' m) :
    (p.orElse q).Extends n (p'.orElse q') m := by
  intro s k
  have run := h s k
  simp only [Parser.orElse]
  generalize p.parse n s k = reply at run ⊢
  generalize p'.parse m s k = reply' at run ⊢
  cases run with
  | success v s' k' => exact .success v s' k'
  | failure e s' k' => exact hq s k
  | halted cause => exact .halted cause
  | outOfFuel => exact .outOfFuel _

theorem Extends.orDefault (v : α) (h : p.Extends n p' m) :
    (p.orDefault v).Extends n (p'.orDefault v) m :=
  h.orElse (extends_pure v)

/-- Alternatives of two choices, one by one. -/
abbrev ExtendsAll (ps : List (Parser ι κ ε α)) (n : Nat) (ps' : List (Parser ι κ ε α)) (m : Nat) :
    Prop :=
  List.Forall₂ (fun p p' => p.Extends n p' m) ps ps'

theorem Extends.firstOf {ps ps' : List (Parser ι κ ε α)} (h : p.Extends n p' m)
    (hs : ExtendsAll ps n ps' m) : (firstOf p ps).Extends n (Parser.firstOf p' ps') m := by
  induction hs generalizing p p' with
  | nil => exact h
  | cons hq _ ih => exact ih (h.orElse hq)

theorem extends_tryFarthest [Reaching ε] {ps ps' : List (Parser ι κ ε α)}
    (hs : ExtendsAll ps n ps' m) (s : ι) (k : κ) (worst : ε) :
    (tryFarthest n s k worst ps).Extends (tryFarthest m s k worst ps') := by
  induction hs generalizing worst with
  | nil => exact .refl _
  | @cons p p' ps ps' hp _ ih =>
    have run := hp s k
    unfold tryFarthest
    generalize p.parse n s k = reply at run ⊢
    generalize p'.parse m s k = reply' at run ⊢
    cases run with
    | success v s' k' => exact .success v s' k'
    | failure e s' k' => exact ih _
    | halted cause => exact .halted cause
    | outOfFuel => exact .outOfFuel _

theorem Extends.farthestOf [Placed κ] [Reaching ε] {ps ps' : List (Parser ι κ ε α)}
    (h : p.Extends n p' m) (hs : ExtendsAll ps n ps' m) :
    (farthestOf p ps).Extends n (Parser.farthestOf p' ps') m := by
  intro s k
  have run := h s k
  simp only [Parser.farthestOf]
  generalize p.parse n s k = reply at run ⊢
  generalize p'.parse m s k = reply' at run ⊢
  cases run with
  | success v s' k' => exact .success v s' k'
  | failure e s' k' => exact extends_tryFarthest hs s k e
  | halted cause => exact .halted cause
  | outOfFuel => exact .outOfFuel _

/-! ## Repetitions -/

/-- A repetition may take more turns. -/
theorem extends_repeated (h : p.Extends n p' m) {turns turns' : Nat} (more : turns ≤ turns') (s : ι)
    (k : κ) : (p.repeated n turns s k).Extends (p'.repeated m turns' s k) := by
  induction turns generalizing turns' s k with
  | zero => exact .outOfFuel _
  | succ turns ih =>
    obtain ⟨turns', rfl⟩ := Nat.exists_eq_add_of_le' (Nat.le_trans (Nat.le_add_left 1 turns) more)
    have run := h s k
    unfold repeated
    generalize p.parse n s k = reply at run ⊢
    generalize p'.parse m s k = reply' at run ⊢
    cases run with
    | success v s' k' => exact (ih (Nat.le_of_succ_le_succ more) s' k').map _
    | failure e s' k' => exact .success [] s k
    | halted cause => exact .halted cause
    | outOfFuel => exact .outOfFuel _

theorem Extends.many1 (h : p.Extends n p' m) (more : n ≤ m) : p.many1.Extends n p'.many1 m := by
  intro s k
  have run := h s k
  simp only [Parser.many1]
  generalize p.parse n s k = reply at run ⊢
  generalize p'.parse m s k = reply' at run ⊢
  cases run with
  | success v s' k' => exact (extends_repeated h more s' k').map _
  | failure e s' k' => exact .failure e s k
  | halted cause => exact .halted cause
  | outOfFuel => exact .outOfFuel _

theorem Extends.many (h : p.Extends n p' m) (more : n ≤ m) : p.many.Extends n p'.many m :=
  (h.many1 more).orElse (extends_pure [])

theorem Extends.sepBy {q q' : Parser ι κ ε β} (h : p.Extends n p' m) (hq : q.Extends n q' m)
    (more : n ≤ m) : (sepBy p q).Extends n (Parser.sepBy p' q') m :=
  (h.bind fun _ => ((hq.seqRight h).many more).map _).orElse (extends_pure [])

/-! ## Recursive rules -/

/-- A rule that is unfolded deeper extends its replies, when its body does as soon as the rule
inside it does. -/
theorem extends_unfolded {start? : Option (Unit → Except Fault κ)}
    {body : Parser ι κ ε α → Parser ι κ ε α}
    (h : ∀ q q', q.Extends n q' m → (body q).Extends n (body q') m) {depth depth' : Nat}
    (deeper : depth ≤ depth') :
    Extends ⟨start?, fun m => unfolded start? body depth m⟩ n
      ⟨start?, fun m => unfolded start? body depth' m⟩ m := by
  induction depth generalizing depth' with
  | zero => exact fun _ _ => .outOfFuel _
  | succ depth ih =>
    obtain ⟨depth', rfl⟩ := Nat.exists_eq_add_of_le' (Nat.le_trans (Nat.le_add_left 1 depth) deeper)
    exact h _ _ (ih (Nat.le_of_succ_le_succ deeper))

theorem extends_fix {start? : Option (Unit → Except Fault κ)}
    {body : Parser ι κ ε α → Parser ι κ ε α} (more : n ≤ m)
    (h : ∀ q q', q.Extends n q' m → (body q).Extends n (body q') m) :
    (fix start? body).Extends n (fix start? body) m :=
  extends_unfolded h more

end Parser

/-! ## Primitives -/

namespace TextParser

open Reckoner.Parser

variable {n m : Nat}

theorem extends_ofStep (step : List Char → Position → Except TextError (α × Position)) :
    (ofStep step).Extends n (ofStep step) m := fun _ _ => .refl _

theorem extends_ofLook (look : Position → Option Char → Except TextError (α × Position)) :
    (ofLook look).Extends n (ofLook look) m := fun _ _ => .refl _

theorem extends_satisfy (accepts : Char → Bool) (expected : String) :
    (satisfy accepts expected).Extends n (satisfy accepts expected) m :=
  extends_ofLook _

theorem extends_char (c : Char) : (char c).Extends n (char c) m :=
  extends_satisfy _ _

theorem extends_spaces (more : n ≤ m) : spaces.Extends n spaces m :=
  (extends_char ' ').many more

end TextParser

end Reckoner
