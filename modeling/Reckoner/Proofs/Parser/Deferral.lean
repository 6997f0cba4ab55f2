import Reckoner.Parser.Leaf
import Reckoner.Parser.Recursion
import Reckoner.Proofs.Parser.Built

/-!
# Deferred parts of a parser

A `Composition` is a parser with a part left open, nested in the combinators in any way. What is put
there may be deferred: with an explicit context the runs are the same, for a deferred parser hands
them on.

Without a context a run starts where the parser says. A deferred parser always says where, even if
the parser that it stands for does not; then it says the default context, and an alternation asks no
further. So a composition starts as it would without the deferral, or else its part offers no
context and the run starts in the default one.
-/

namespace Reckoner.Parser

variable {ι κ ε φ α β γ : Type}

/-! ## Compositions -/

/-- Some parsers that have a part left open. -/
abbrev Open (ι κ ε α : Type) :=
  ∀ φ β : Type, (Parser ι κ ε α → Parser ι κ φ β) → Prop

/-- The open parsers that are known, and those of some rules. -/
inductive Open.With (known : Open ι κ ε α) {R : Type} {φ β : R → Type}
    (rules : Parser ι κ ε α → ∀ r, Parser ι κ (φ r) (β r)) : Open ι κ ε α
  | known {φ β : Type} {C : Parser ι κ ε α → Parser ι κ φ β} : known φ β C → With known rules φ β C
  | rule (r : R) : With known rules (φ r) (β r) fun p => rules p r

/-- The parsers that are composed around an open part, which may occur any number of times. The
other combinators are made of these. A rule that refers to itself starts where a parser that does
not refer to it starts. -/
inductive CompositionFrom [Inhabited κ] : Open ι κ ε α →
    ∀ {φ β : Type}, (Parser ι κ ε α → Parser ι κ φ β) → Prop
  | part {known : Open ι κ ε α} : CompositionFrom known fun p => p
  | other {known : Open ι κ ε α} {φ β : Type} (q : Parser ι κ φ β) :
      CompositionFrom known fun _ => q
  | known {known : Open ι κ ε α} {φ β : Type} {C : Parser ι κ ε α → Parser ι κ φ β} :
      known φ β C → CompositionFrom known C
  | map {known : Open ι κ ε α} {φ β γ : Type} {C : Parser ι κ ε α → Parser ι κ φ β} (f : β → γ) :
      CompositionFrom known C → CompositionFrom known fun p => (C p).map f
  | bind {known : Open ι κ ε α} {φ β γ : Type} {C : Parser ι κ ε α → Parser ι κ φ β}
      {D : β → Parser ι κ ε α → Parser ι κ φ γ} :
      CompositionFrom known C → (∀ v, CompositionFrom known (D v)) →
      CompositionFrom known fun p => (C p).bind fun v => D v p
  | orElse {known : Open ι κ ε α} {φ ψ β : Type} {C : Parser ι κ ε α → Parser ι κ φ β}
      {D : Parser ι κ ε α → Parser ι κ ψ β} :
      CompositionFrom known C → CompositionFrom known D →
      CompositionFrom known fun p => (C p).orElse (D p)
  | mapError {known : Open ι κ ε α} {φ ψ β : Type} {C : Parser ι κ ε α → Parser ι κ φ β}
      (f : φ → ψ) : CompositionFrom known C → CompositionFrom known fun p => (C p).mapError f
  | filter {known : Open ι κ ε α} {φ β : Type} {C : Parser ι κ ε α → Parser ι κ φ β}
      (accepts : β → Bool) (error : β → φ) :
      CompositionFrom known C → CompositionFrom known fun p => (C p).filter accepts error
  | mapContext {known : Open ι κ ε α} {φ β : Type} {C : Parser ι κ ε α → Parser ι κ φ β}
      (f : κ → κ) : CompositionFrom known C → CompositionFrom known fun p => (C p).mapContext f
  | many1 {known : Open ι κ ε α} {φ β : Type} {C : Parser ι κ ε α → Parser ι κ φ β} :
      CompositionFrom known C → CompositionFrom known fun p => (C p).many1
  | farthestOf {known : Open ι κ ε α} [Placed κ] {φ β : Type} [Reaching φ]
      {C : Parser ι κ ε α → Parser ι κ φ β} {Ds : List (Parser ι κ ε α → Parser ι κ φ β)} :
      CompositionFrom known C → (∀ D ∈ Ds, CompositionFrom known D) →
      CompositionFrom known fun p => farthestOf (C p) (Ds.map fun D => D p)
  | defer {known : Open ι κ ε α} {φ β : Type} {C : Parser ι κ ε α → Parser ι κ φ β} :
      CompositionFrom known C → CompositionFrom known fun p => defer fun _ => C p
  | rules {known : Open ι κ ε α} {R : Type} {φ β : R → Type}
      {starts : ∀ r, Parser ι κ ε α → Parser ι κ (φ r) (β r)}
      {bodies : Parser ι κ ε α → (∀ r, Parser ι κ (φ r) (β r)) → ∀ r, Parser ι κ (φ r) (β r)} :
      (∀ r, CompositionFrom known (starts r)) →
      (∀ rules r, CompositionFrom (known.With rules) fun p => bodies p (rules p) r) →
      ∀ r, CompositionFrom known fun p => fixRules (fun r => (starts r p).start?) (bodies p) r

/-- The parsers that are composed around an open part and of any others without it. -/
abbrev Composition [Inhabited κ] (C : Parser ι κ ε α → Parser ι κ φ β) : Prop :=
  CompositionFrom (fun _ _ _ => False) C

namespace CompositionFrom

variable [Inhabited κ] {known : Open ι κ ε α} {C : Parser ι κ ε α → Parser ι κ φ β}

theorem seqRight {D : Parser ι κ ε α → Parser ι κ φ γ} (hC : CompositionFrom known C)
    (hD : CompositionFrom known D) : CompositionFrom known fun p => (C p).seqRight (D p) :=
  .bind hC fun _ => hD

theorem seqLeft {D : Parser ι κ ε α → Parser ι κ φ γ} (hC : CompositionFrom known C)
    (hD : CompositionFrom known D) : CompositionFrom known fun p => (C p).seqLeft (D p) :=
  .bind hC fun _ => .map _ hD

theorem both {D : Parser ι κ ε α → Parser ι κ φ γ} (hC : CompositionFrom known C)
    (hD : CompositionFrom known D) : CompositionFrom known fun p => (C p).both (D p) :=
  .bind hC fun _ => .map _ hD

theorem transform {ψ : Type} (f : Parser ι κ φ β → Parser ι κ ψ γ)
    (h : CompositionFrom known fun p => f (C p)) :
    CompositionFrom known fun p => (C p).transform f :=
  h

theorem orDefault (v : β) (h : CompositionFrom known C) :
    CompositionFrom known fun p => (C p).orDefault v :=
  .orElse h (.other (pure v))

theorem many (h : CompositionFrom known C) : CompositionFrom known fun p => (C p).many :=
  .orElse (.many1 h) (.other (pure []))

theorem sepBy {D : Parser ι κ ε α → Parser ι κ φ γ} (hC : CompositionFrom known C)
    (hD : CompositionFrom known D) : CompositionFrom known fun p => (C p).sepBy (D p) :=
  .orElse (.bind hC fun _ => .map _ (hD.seqRight hC).many) (.other (pure []))

theorem firstOf {Ds : List (Parser ι κ ε α → Parser ι κ φ β)} (hC : CompositionFrom known C)
    (hDs : ∀ D ∈ Ds, CompositionFrom known D) :
    CompositionFrom known fun p => firstOf (C p) (Ds.map fun D => D p) := by
  induction Ds generalizing C with
  | nil => exact hC
  | cons D Ds ih =>
    obtain ⟨hD, hDs⟩ := List.forall_mem_cons.mp hDs
    exact ih (.orElse hC hD) hDs

/-- The rest of a sequence is run after what is done. -/
theorem sequence_onto {done : Parser ι κ ε α → Parser ι κ φ (List β)}
    {Ds : List (Parser ι κ ε α → Parser ι κ φ β)} (hd : CompositionFrom known done)
    (hDs : ∀ D ∈ Ds, CompositionFrom known D) :
    CompositionFrom known fun p => (Ds.map fun D => D p).foldl
      (fun done q => done.bind fun vs => q.map fun v => vs ++ [v]) (done p) := by
  induction Ds generalizing done with
  | nil => exact hd
  | cons D Ds ih =>
    obtain ⟨hD, hDs⟩ := List.forall_mem_cons.mp hDs
    exact ih (.bind hd fun _ => .map _ hD) hDs

theorem sequence {Ds : List (Parser ι κ ε α → Parser ι κ φ β)}
    (hDs : ∀ D ∈ Ds, CompositionFrom known D) :
    CompositionFrom known fun p => sequence (Ds.map fun D => D p) := by
  cases Ds with
  | nil => exact .other (pure [])
  | cons D Ds =>
    obtain ⟨hD, hDs⟩ := List.forall_mem_cons.mp hDs
    exact sequence_onto (.map _ hD) hDs

/-- A rule that refers to itself is composed when its body is, from the rule. -/
theorem fix {start : Parser ι κ ε α → Parser ι κ φ β}
    {body : Parser ι κ ε α → Parser ι κ φ β → Parser ι κ φ β} (hs : CompositionFrom known start)
    (h : ∀ rule : Parser ι κ ε α → Parser ι κ φ β,
      CompositionFrom (known.With fun p (_ : Unit) => rule p) fun p => body p (rule p)) :
    CompositionFrom known fun p => fix (start p).start? (body p) := by
  simp only [fix_eq_fixRules]
  exact .rules (R := Unit) (fun _ => hs) (fun rules _ => h fun p => rules p ()) ()

end CompositionFrom

/-! ## Runs do not depend on where their parts would start -/

section Congruence

variable {p p' : Parser ι κ ε α}

theorem repeated_congr (h : p.parse = p'.parse) (fuel turns : Nat) :
    p.repeated fuel turns = p'.repeated fuel turns := by
  induction turns with
  | zero => rfl
  | succ turns ih =>
    funext s k
    unfold repeated
    rw [h, ih]

theorem many1_congr (h : p.parse = p'.parse) : p.many1.parse = p'.many1.parse := by
  unfold many1
  simp only [h, repeated_congr h]

theorem bind_congr {f f' : α → Parser ι κ ε β} (h : p.parse = p'.parse)
    (hf : ∀ v, (f v).parse = (f' v).parse) : (p.bind f).parse = (p'.bind f').parse := by
  unfold bind
  simp only [h, hf]

theorem orElse_congr {q q' : Parser ι κ φ α} (h : p.parse = p'.parse) (hq : q.parse = q'.parse) :
    (p.orElse q).parse = (p'.orElse q').parse := by
  unfold orElse
  simp only [h, hq]

theorem tryFarthest_congr [Reaching ε] {n : Nat} {s : ι} {k : κ} (worst : ε) {γ : Type}
    {Ds : List γ} {q q' : γ → Parser ι κ ε α} (h : ∀ D ∈ Ds, (q D).parse = (q' D).parse) :
    tryFarthest n s k worst (Ds.map q) = tryFarthest n s k worst (Ds.map q') := by
  induction Ds generalizing worst with
  | nil => rfl
  | cons D Ds ih =>
    obtain ⟨hD, hDs⟩ := List.forall_mem_cons.mp h
    simp only [List.map_cons, tryFarthest, hD, ih _ hDs]

end Congruence

/-! ## Where runs start -/

variable [Inhabited κ]

/-- The contexts offered with the part deferred and without: they are the same, unless the part
offers none and the deferral offers the default one for it. -/
def StartsAlike (p : Parser ι κ ε α) (deferred direct : Option (Unit → Except Fault κ)) : Prop :=
  deferred = direct ∨ p.start? = none ∧ ∃ offer, deferred = some offer ∧ offer () = .ok default

namespace StartsAlike

variable {p : Parser ι κ ε α}

theorem part : StartsAlike p (Parser.defer fun _ => p).start? p.start? := by
  cases h : p.start? with
  | none =>
    refine .inr ⟨h, _, rfl, ?_⟩
    unfold initial
    rw [h]
  | some offer =>
    refine .inl (congrArg some (funext fun _ => ?_))
    unfold initial
    rw [h]

/-- An alternation that has a context to start in asks no further. -/
theorem or {x x' y y' : Option (Unit → Except Fault κ)} (h : StartsAlike p x x')
    (hy : StartsAlike p y y') : StartsAlike p (x.or y) (x'.or y') := by
  rcases h with rfl | ⟨none, offer, rfl, default⟩
  · cases x with
    | none => exact hy
    | some offer => exact .inl rfl
  · exact .inr ⟨none, offer, rfl, default⟩

theorem defer {q q' : Parser ι κ φ β} (h : StartsAlike p q.start? q'.start?) :
    StartsAlike p (Parser.defer fun _ => q).start? (Parser.defer fun _ => q').start? := by
  rcases h with same | ⟨none, offer, offered, default⟩
  · left
    unfold Parser.defer initial
    simp only [same]
  · refine .inr ⟨none, _, rfl, ?_⟩
    unfold initial
    rw [offered]
    exact default

end StartsAlike

/-! ## Deferral -/

/-- With its part deferred, a parser runs in the same way and starts alike. -/
def Transparent (p : Parser ι κ ε α) (C : Parser ι κ ε α → Parser ι κ φ β) : Prop :=
  (C (.defer fun _ => p)).parse = (C p).parse ∧
    StartsAlike p (C (.defer fun _ => p)).start? (C p).start?

/-- A combinator that starts where its part starts is transparent, when nothing but the start of its
runs depends on where the part starts. -/
theorem Transparent.via {ψ : Type} {p : Parser ι κ ε α} {C : Parser ι κ ε α → Parser ι κ φ β}
    (F : Parser ι κ φ β → Parser ι κ ψ γ) (starts : ∀ q, (F q).start? = q.start?)
    (runs : ∀ start? start?' parse, (F ⟨start?, parse⟩).parse = (F ⟨start?', parse⟩).parse)
    (h : Transparent p C) : Transparent p fun p => F (C p) := by
  obtain ⟨same, alike⟩ := h
  constructor
  · calc (F (C (.defer fun _ => p))).parse
        = (F ⟨(C (.defer fun _ => p)).start?, (C p).parse⟩).parse := by rw [← same]
      _ = (F (C p)).parse := runs _ _ _
  · rw [starts, starts]
    exact alike

/-- Every depth of the unfolding of some rules is transparent, when the bodies are as soon as the
rules that they refer to are. -/
theorem transparent_unfoldedRules {p : Parser ι κ ε α} {R : Type} {φ β : R → Type}
    {starts : ∀ r, Parser ι κ ε α → Parser ι κ (φ r) (β r)}
    {bodies : Parser ι κ ε α → (∀ r, Parser ι κ (φ r) (β r)) → ∀ r, Parser ι κ (φ r) (β r)}
    (hs : ∀ r, Transparent p (starts r))
    (h : ∀ rules : Parser ι κ ε α → ∀ r, Parser ι κ (φ r) (β r),
      (∀ r, Transparent p fun p => rules p r) →
      ∀ r, Transparent p fun p => bodies p (rules p) r) (depth : Nat) :
    ∀ r, Transparent p fun p => ⟨(starts r p).start?, fun m =>
      unfoldedRules (fun r => (starts r p).start?) (bodies p) depth r m⟩ := by
  induction depth with
  | zero => exact fun r => ⟨rfl, (hs r).2⟩
  | succ depth ih =>
    intro r
    have body := h (fun p r => ⟨(starts r p).start?, fun m =>
      unfoldedRules (fun r => (starts r p).start?) (bodies p) depth r m⟩) ih r
    exact ⟨body.1, (hs r).2⟩

/-- What is composed of transparent parsers is transparent. -/
theorem CompositionFrom.transparent {p : Parser ι κ ε α} {known : Open ι κ ε α}
    {C : Parser ι κ ε α → Parser ι κ φ β} (h : CompositionFrom known C)
    (hk : ∀ φ β C, known φ β C → Transparent p C) : Transparent p C := by
  induction h with
  | part => exact ⟨rfl, .part⟩
  | other q => exact ⟨rfl, .inl rfl⟩
  | known h => exact hk _ _ _ h
  | map f _ ih => exact (ih hk).via (·.map f) (fun _ => rfl) fun _ _ _ => rfl
  | bind _ _ ihC ihD => exact ⟨bind_congr (ihC hk).1 fun v => (ihD v hk).1, (ihC hk).2⟩
  | orElse _ _ ihC ihD =>
    exact ⟨orElse_congr (ihC hk).1 (ihD hk).1, (ihC hk).2.or (ihD hk).2⟩
  | mapError f _ ih => exact (ih hk).via (·.mapError f) (fun _ => rfl) fun _ _ _ => rfl
  | filter accepts error _ ih =>
    exact (ih hk).via (·.filter accepts error) (fun _ => rfl) fun _ _ _ => rfl
  | mapContext f _ ih => exact (ih hk).via (·.mapContext f) (fun _ => rfl) fun _ _ _ => rfl
  | many1 _ ih => exact (ih hk).via (·.many1) (fun _ => rfl) fun _ _ _ => many1_congr rfl
  | farthestOf _ _ ihC ihDs =>
    -- a choice by reach starts at the start of a text whatever its alternatives offer
    refine ⟨?_, .inl rfl⟩
    unfold Parser.farthestOf
    simp only [(ihC hk).1, tryFarthest_congr _ fun D hD => (ihDs D hD hk).1]
  | defer _ ih => exact ⟨(ih hk).1, (ih hk).2.defer⟩
  | rules _ _ r ihS ihB =>
    have starts := fun r => ihS r hk
    refine ⟨?_, (starts r).2⟩
    funext n s k
    -- inside the bodies the rules are known parsers, which are transparent one level deeper
    have unfolds := transparent_unfoldedRules starts (fun rules hr r => ihB rules r ?_) n r
    · exact congrFun (congrFun (congrFun unfolds.1 n) s) k
    · intro φ β C hC
      cases hC with
      | known hC => exact hk φ β C hC
      | rule r => exact hr r

/-- Two parsers that start alike are run from the same context, unless the deferral put the default
one in the place of a context that is offered. -/
theorem StartsAlike.run_cases {p : Parser ι κ ε α} {q q' : Parser ι κ φ β}
    (h : StartsAlike p q.start? q'.start?) (runs : q.parse = q'.parse) (n : Nat) (s : ι) :
    q.run n s = q'.run n s ∨
      p.start? = none ∧ q'.start? ≠ none ∧ q.run n s = q'.parse n s default := by
  rcases h with same | ⟨none, offer, offered, default⟩
  · left
    unfold run initial
    rw [same, runs]
  · have started : q.run n s = q'.parse n s Inhabited.default := by
      unfold run initial
      simp only [offered, default, runs]
    cases found : q'.start? with
    | none =>
      left
      rw [started]
      unfold run initial
      rw [found]
    | some offer' => exact .inr ⟨none, nofun, started⟩

/-- Deferring a part of a parser changes no run with a context. A run without one is the same when
the part offers a context, or when the whole parser offers none; otherwise it may start in the
default context. -/
theorem deferral_transparent {C : Parser ι κ ε α → Parser ι κ φ β} (h : Composition C)
    (p : Parser ι κ ε α) :
    (∀ n s k, (C (.defer fun _ => p)).parse n s k = (C p).parse n s k) ∧
      (p.start? ≠ none ∨ (C p).start? = none →
        ∀ n s, (C (.defer fun _ => p)).run n s = (C p).run n s) ∧
      ∀ n s, (C (.defer fun _ => p)).run n s = (C p).run n s ∨
        (C (.defer fun _ => p)).run n s = (C p).parse n s default := by
  obtain ⟨runs, starts⟩ := h.transparent (p := p) fun _ _ _ none => none.elim
  have cases := starts.run_cases runs
  refine ⟨fun n s k => by rw [runs], fun offered n s => ?_, fun n s => ?_⟩
  · rcases cases n s with same | ⟨none, some', -⟩
    · exact same
    · rcases offered with offers | silent
      · exact absurd none offers
      · exact absurd silent some'
  · exact (cases n s).imp_right fun ⟨_, _, started⟩ => started

section Letters

/-- The letters `a` and `b`, each read in any context. -/
abbrev letterA : Parser (List Char) Spot Datum Datum := (Leaf.codePoint 97).parser

abbrev letterB : Parser (List Char) Spot Datum Datum := (Leaf.codePoint 98).parser

/-- A letter that starts at the start of a text may be deferred in a list of letters. -/
theorem deferral_transparent_letters :
    Composition (fun p : Parser (List Char) Spot Datum Datum => (p.orElse letterB).many) ∧
      letterA.start? ≠ none ∧
      ∀ n s, ((Parser.defer fun _ => letterA).orElse letterB).many.run n s =
        (letterA.orElse letterB).many.run n s := by
  have composed : Composition fun p : Parser (List Char) Spot Datum Datum =>
      (p.orElse letterB).many := (CompositionFrom.orElse .part (.other letterB)).many
  obtain ⟨-, same, -⟩ := deferral_transparent composed letterA
  exact ⟨composed, nofun, same (.inl nofun)⟩

/-- A parser that only fails offers no context, so the letter that is tried after it offers its own.
Deferred, it offers the default one, in which no letter can be read. -/
theorem deferral_hides_start :
    ∃ (C : Parser (List Char) Spot Datum Datum → Parser (List Char) Spot Datum Datum) (p : _),
      Composition C ∧
      (C p).run 1 ['a'] = .success (.scalar (.int 97)) ['a'] (.place ⟨1, 1, 2⟩) ∧
      (C (.defer fun _ => p)).run 1 ['a'] = .halted (.fault .noPosition) :=
  ⟨fun p => p.orElse letterA, .fail (.scalar (.text "x")), .orElse .part (.other letterA),
    rfl, rfl⟩

end Letters

end Reckoner.Parser
