import Reckoner.Parser.Leaf
import Reckoner.Proofs.Parser.Reverting

/-!
# Laws of sequence and choice

Sequences associate, and so do choices: both drop what a failing part gave back, however they are
nested. Mapping can be done before or after a sequence, and at once. A parser that fails at once is
a unit of choice on the left.

A sequence gives back the input and context it was given. So `pure` is a unit of it, and `map` is
made of it, just for parsers that revert; each of these laws is stated with the condition under
which it holds.

A choice starts where its first alternative that offers a context starts. `pure` offers none. So
a choice after `pure` answers as `pure` does in every context, but a run that is given none starts
where the other alternative starts: in the default context, too, if that offers none or offers just
this one.
-/

namespace Reckoner

variable {ι κ ε φ ψ α β γ : Type}

theorem Reply.map_id (r : Reply ι κ ε α) : r.map id = r := by
  cases r <;> rfl

namespace Parser

/-! ## Associativity -/

theorem bind_assoc (p : Parser ι κ ε α) (f : α → Parser ι κ ε β) (g : β → Parser ι κ ε γ) :
    (p.bind f).bind g = p.bind fun v => (f v).bind g := by
  refine Parser.ext rfl (funext fun n => funext fun s => funext fun k => ?_)
  unfold bind
  dsimp only
  cases p.parse n s k with
  | success v s' k' =>
    dsimp only
    cases (f v).parse n s' k' with
    | success w s'' k'' =>
      dsimp only
      cases (g w).parse n s'' k'' <;> rfl
    | failure => rfl
    | halted => rfl
  | failure => rfl
  | halted => rfl

theorem orElse_assoc (p : Parser ι κ ε α) (q : Parser ι κ φ α) (r : Parser ι κ ψ α) :
    (p.orElse q).orElse r = p.orElse (q.orElse r) := by
  refine Parser.ext Option.or_assoc (funext fun n => funext fun s => funext fun k => ?_)
  unfold orElse
  dsimp only
  cases p.parse n s k <;> rfl

/-! ## Mapping -/

theorem map_bind (p : Parser ι κ ε α) (g : α → β) (f : β → Parser ι κ ε γ) :
    (p.map g).bind f = p.bind fun v => f (g v) := by
  refine Parser.ext rfl (funext fun n => funext fun s => funext fun k => ?_)
  unfold bind map
  dsimp only
  cases p.parse n s k <;> rfl

theorem bind_map (p : Parser ι κ ε α) (f : α → Parser ι κ ε β) (g : β → γ) :
    (p.bind f).map g = p.bind fun v => (f v).map g := by
  refine Parser.ext rfl (funext fun n => funext fun s => funext fun k => ?_)
  unfold bind map
  dsimp only
  cases p.parse n s k with
  | success v s' k' =>
    dsimp only
    cases (f v).parse n s' k' <;> rfl
  | failure | halted => rfl

theorem map_map (p : Parser ι κ ε α) (f : α → β) (g : β → γ) :
    (p.map f).map g = p.map fun v => g (f v) := by
  refine Parser.ext rfl (funext fun n => funext fun s => funext fun k => ?_)
  unfold map
  dsimp only
  cases p.parse n s k <;> rfl

/-! ## Units of choice -/

theorem fail_orElse (e : ε) (p : Parser ι κ φ α) : (fail e : Parser ι κ ε α).orElse p = p :=
  Parser.ext rfl rfl

theorem parse_pure_orElse (v : α) (p : Parser ι κ φ α) :
    ((pure v : Parser ι κ ε α).orElse p).parse = (pure v : Parser ι κ φ α).parse :=
  rfl

section Runs

variable [Inhabited κ]

theorem run_pure (v : α) (n : Nat) (s : ι) :
    (pure v : Parser ι κ ε α).run n s = .success v s default :=
  rfl

/-- Without a context a choice after `pure` starts where the other alternative does. -/
theorem initial_pure_orElse (v : α) (p : Parser ι κ φ α) :
    ((pure v : Parser ι κ ε α).orElse p).initial = p.initial :=
  rfl

theorem run_pure_orElse_eq_iff (v : α) (p : Parser ι κ φ α) (n : Nat) (s : ι) :
    ((pure v : Parser ι κ ε α).orElse p).run n s = (pure v : Parser ι κ φ α).run n s ↔
      p.initial = .ok default := by
  rw [run_pure, run, initial_pure_orElse]
  cases p.initial with
  | error cause => exact iff_of_false nofun nofun
  | ok k =>
    constructor
    · intro same
      injection same with _ _ contexts
      exact congrArg Except.ok contexts
    · intro same
      cases same
      rfl

end Runs

/-! ## Units of sequence -/

theorem parse_pure_bind_iff {n : Nat} {s : ι} {k : κ} (v : α) (f : α → Parser ι κ ε β) :
    ((pure v).bind f).parse n s k = (f v).parse n s k ↔ (f v).RevertsAt n s k := by
  unfold bind pure RevertsAt
  dsimp only
  cases (f v).parse n s k with
  | success w s' k' => exact iff_of_true rfl trivial
  | failure e s' k' =>
    rw [Reply.failure.injEq, Reply.GivesBack]
    constructor
    · rintro ⟨-, rfl, rfl⟩
      exact ⟨rfl, rfl⟩
    · rintro ⟨rfl, rfl⟩
      exact ⟨rfl, rfl, rfl⟩
  | halted h => exact iff_of_true rfl trivial

theorem parse_bind_pure_iff {n : Nat} {s : ι} {k : κ} (p : Parser ι κ ε α) (f : α → β) :
    (p.map f).parse n s k = (p.bind fun v => pure (f v)).parse n s k ↔ p.RevertsAt n s k := by
  unfold bind pure map RevertsAt
  dsimp only
  cases p.parse n s k with
  | success v s' k' => exact iff_of_true rfl trivial
  | failure e s' k' =>
    rw [Reply.map, Reply.failure.injEq, Reply.GivesBack]
    constructor
    · rintro ⟨-, rfl, rfl⟩
      exact ⟨rfl, rfl⟩
    · rintro ⟨rfl, rfl⟩
      exact ⟨rfl, rfl, rfl⟩
  | halted h => exact iff_of_true rfl trivial

theorem pure_bind_iff (v : α) (f : α → Parser ι κ ε β) :
    ((pure v).bind f).parse = (f v).parse ↔ (f v).Reverts := by
  constructor
  · intro same n s k
    exact (parse_pure_bind_iff v f).mp (congrFun (congrFun (congrFun same n) s) k)
  · intro reverts
    funext n s k
    exact (parse_pure_bind_iff v f).mpr (reverts n s k)

theorem map_eq_bind_iff (p : Parser ι κ ε α) (f : α → β) :
    p.map f = p.bind (fun v => pure (f v)) ↔ p.Reverts := by
  constructor
  · intro same n s k
    have run := congrArg (fun q => q.parse n s k) same
    exact (parse_bind_pure_iff p f).mp run
  · intro reverts
    refine Parser.ext rfl (funext fun n => funext fun s => funext fun k => ?_)
    exact (parse_bind_pure_iff p f).mpr (reverts n s k)

theorem map_id (p : Parser ι κ ε α) : p.map id = p :=
  Parser.ext rfl (funext fun _ => funext fun _ => funext fun _ => Reply.map_id _)

theorem bind_pure_iff (p : Parser ι κ ε α) : p.bind pure = p ↔ p.Reverts := by
  rw [← map_eq_bind_iff p id, map_id, eq_comm]
  rfl

/-! ## The laws together -/

/-- Sequences and choices associate as parsers, so in every context and where they start. `fail` is
a unit of choice. `pure` on the left of a choice is the answer in every context. A run without one
starts where the other alternative does, so it is the run of `pure` just when that is the default
context. The laws of `pure` in sequences hold exactly for parsers that revert. -/
theorem sequence_choice_laws [Inhabited κ] (p : Parser ι κ ε α) (f : α → Parser ι κ ε β) :
    (∀ {γ : Type} (g : β → Parser ι κ ε γ),
      (p.bind f).bind g = p.bind fun v => (f v).bind g) ∧
    (∀ {φ ψ : Type} (q : Parser ι κ φ α) (r : Parser ι κ ψ α),
      (p.orElse q).orElse r = p.orElse (q.orElse r)) ∧
    (∀ {φ : Type} (e : φ), (fail e : Parser ι κ φ α).orElse p = p) ∧
    (∀ {φ : Type} (v : α),
      ((pure v : Parser ι κ φ α).orElse p).parse = (pure v : Parser ι κ ε α).parse ∧
      ((pure v : Parser ι κ φ α).orElse p).initial = p.initial ∧
      ∀ n s, ((pure v : Parser ι κ φ α).orElse p).run n s = (pure v : Parser ι κ ε α).run n s ↔
        p.initial = .ok default) ∧
    (∀ v, ((pure v).bind f).parse = (f v).parse ↔ (f v).Reverts) ∧
    (p.bind pure = p ↔ p.Reverts) ∧
    ∀ {γ : Type} (g : α → γ), p.map g = p.bind (fun v => pure (g v)) ↔ p.Reverts := by
  refine ⟨?assocBind, ?assocChoice, ?fails, ?pures, ?pureBind, ?bindPure, ?mapped⟩
  case assocBind =>
    intro γ g
    exact bind_assoc p f g
  case assocChoice =>
    intro φ ψ q r
    exact orElse_assoc p q r
  case fails =>
    intro φ e
    exact fail_orElse e p
  case pures =>
    intro φ v
    exact ⟨parse_pure_orElse v p, initial_pure_orElse v p, run_pure_orElse_eq_iff v p⟩
  case pureBind =>
    intro v
    exact pure_bind_iff v f
  case bindPure => exact bind_pure_iff p
  case mapped =>
    intro γ g
    exact map_eq_bind_iff p g

/-- A deferred parser offers a context, but it may be the default one. -/
example [Inhabited κ] (v : α) (e : ε) (n : Nat) (s : ι) :
    ((pure v : Parser ι κ ε α).orElse (defer fun _ => fail e)).run n s =
      (pure v : Parser ι κ ε α).run n s :=
  rfl

/-- A choice between `pure` and a character starts at the first position of the text; `pure` alone
starts in no position. -/
theorem pure_orElse_starts_elsewhere :
    let one : Parser (List Char) Spot Datum Datum := pure (.scalar (.int 1))
    let either := one.orElse (Leaf.codePoint 97).parser
    either.run 1 ['a'] = .success (.scalar (.int 1)) ['a'] (.place .start) ∧
    one.run 1 ['a'] = .success (.scalar (.int 1)) ['a'] .absent ∧
    either.run 1 ['a'] ≠ one.run 1 ['a'] := by
  intro one either
  have chosen : either.run 1 ['a'] = .success (.scalar (.int 1)) ['a'] (.place .start) := rfl
  have alone : one.run 1 ['a'] = .success (.scalar (.int 1)) ['a'] .absent := rfl
  refine ⟨chosen, alone, ?_⟩
  rw [chosen, alone]
  intro same
  injection same with _ _ contexts
  exact Spot.noConfusion contexts

end Parser

end Reckoner
