import Reckoner.Parser.Stream
import Reckoner.Proofs.Parser.Fuel

/-!
# Repetitions

What a repetition does is told by the runs of its parser alone, one after the other, for any parser
and whatever its failures give back. `Replies` is the reply that a run settles on when it has fuel
enough. `Leads` follows the successes of a step from state to state and lists their values; the step
is a success of the parser, or for separated occurrences one of the separator and then one of the
parser.

A repetition gives the values that lead to the first state where its parser fails, and ends there:
what the failing run answered is dropped. So does the tail of separated occurrences, which stops
before a separator that nothing follows. If every success raises an index that cannot pass a bound,
such a state is reached, or else one where the parser faults, and the repetition terminates.
-/

namespace Reckoner

variable {ι κ ε φ α β : Type}

/-- The reply, but that a failure gives back the state named here. -/
def Reply.backTo (s : ι) (k : κ) : Reply ι κ ε α → Reply ι κ ε α
  | .failure e _ _ => .failure e s k
  | r => r

namespace Parser

/-! ## Replies with fuel enough -/

/-- From some fuel on, the runs of `p` give the reply. -/
def Replies (p : Parser ι κ ε α) (s : ι) (k : κ) (r : Reply ι κ ε α) : Prop :=
  ∃ least, ∀ n, least ≤ n → p.parse n s k = r

/-- `p` succeeds with `v` in the state that follows. -/
def Succeeds (p : Parser ι κ ε α) (s : ι) (k : κ) (v : α) (s' : ι) (k' : κ) : Prop :=
  p.Replies s k (.success v s' k')

/-- `p` fails with `e`; what it gives back may be anything. -/
def Rejects (p : Parser ι κ ε α) (s : ι) (k : κ) (e : ε) : Prop :=
  ∃ s' k', p.Replies s k (.failure e s' k')

/-- `p` settles on a reply. -/
def Terminates (p : Parser ι κ ε α) (s : ι) (k : κ) : Prop :=
  ∃ r, r ≠ .halted .outOfFuel ∧ p.Replies s k r

/-- `p` fails or faults. -/
def Quits (p : Parser ι κ ε α) (s : ι) (k : κ) : Prop :=
  (∃ e, p.Rejects s k e) ∨ ∃ cause, p.Replies s k (.halted (.fault cause))

variable {p : Parser ι κ ε α} {sep : Parser ι κ ε β} {s s' s'' t : ι} {k k' k'' c : κ} {v w : α}
  {vs : List α} {e : ε}

theorem Replies.unique {r r' : Reply ι κ ε α} (h : p.Replies s k r) (h' : p.Replies s k r') :
    r = r' := by
  obtain ⟨least, h⟩ := h
  obtain ⟨least', h'⟩ := h'
  rw [← h _ (Nat.le_max_left least least'), h' _ (Nat.le_max_right least least')]

theorem Succeeds.unique (h : p.Succeeds s k v s' k') (h' : p.Succeeds s k w s'' k'') :
    v = w ∧ s' = s'' ∧ k' = k'' := by
  have same := Replies.unique h h'
  rwa [Reply.success.injEq] at same

theorem Succeeds.not_rejects (h : p.Succeeds s k v s' k') : ¬ p.Rejects s k e := by
  rintro ⟨t, c, rejected⟩
  cases Replies.unique h rejected

theorem Succeeds.terminates (h : p.Succeeds s k v s' k') : p.Terminates s k := by
  refine ⟨_, ?_, h⟩
  intro same
  cases same

theorem Quits.terminates (h : p.Quits s k) : p.Terminates s k := by
  rcases h with ⟨e, s', k', rejected⟩ | ⟨cause, faulted⟩
  · refine ⟨_, ?_, rejected⟩
    intro same
    cases same
  · refine ⟨_, ?_, faulted⟩
    intro same
    cases same

theorem Terminates.cases (h : p.Terminates s k) :
    (∃ v s' k', p.Succeeds s k v s' k') ∨ p.Quits s k := by
  obtain ⟨r, settled, replies⟩ := h
  cases r with
  | success v s' k' => exact .inl ⟨v, s', k', replies⟩
  | failure e s' k' => exact .inr (.inl ⟨e, s', k', replies⟩)
  | halted cause =>
    cases cause with
    | outOfFuel => exact absurd rfl settled
    | fault cause => exact .inr (.inr ⟨cause, replies⟩)

/-! ## Sequences and choices of such runs -/

theorem Replies.map {r : Reply ι κ ε α} (f : α → β) (h : p.Replies s k r) :
    (p.map f).Replies s k (r.map f) := by
  obtain ⟨least, run⟩ := h
  refine ⟨least, ?_⟩
  intro n enough
  exact congrArg (Reply.map f) (run n enough)

theorem Replies.bind {f : α → Parser ι κ ε β} {r : Reply ι κ ε β} (h : p.Succeeds s k v s' k')
    (hf : (f v).Replies s' k' r) : (p.bind f).Replies s k (r.backTo s k) := by
  obtain ⟨least, run⟩ := h
  obtain ⟨least', run'⟩ := hf
  refine ⟨max least least', ?_⟩
  intro n enough
  rw [Nat.max_le] at enough
  simp only [Parser.bind, run n enough.1, run' n enough.2]
  cases r <;> rfl

theorem Rejects.bind {f : α → Parser ι κ ε β} (h : p.Rejects s k e) :
    (p.bind f).Replies s k (.failure e s k) := by
  obtain ⟨s', k', least, run⟩ := h
  refine ⟨least, ?_⟩
  intro n enough
  simp only [Parser.bind, run n enough]

theorem Replies.bind_fault {f : α → Parser ι κ ε β} {cause : Fault}
    (h : p.Replies s k (.halted (.fault cause))) :
    (p.bind f).Replies s k (.halted (.fault cause)) := by
  obtain ⟨least, run⟩ := h
  refine ⟨least, ?_⟩
  intro n enough
  simp only [Parser.bind, run n enough]

theorem Succeeds.orElse {q : Parser ι κ φ α} (h : p.Succeeds s k v s' k') :
    (p.orElse q).Succeeds s k v s' k' := by
  obtain ⟨least, run⟩ := h
  refine ⟨least, ?_⟩
  intro n enough
  simp only [Parser.orElse, run n enough]

theorem Rejects.orElse {q : Parser ι κ φ α} {r : Reply ι κ φ α} (h : p.Rejects s k e)
    (hq : q.Replies s k r) : (p.orElse q).Replies s k r := by
  obtain ⟨s', k', least, run⟩ := h
  obtain ⟨least', run'⟩ := hq
  refine ⟨max least least', ?_⟩
  intro n enough
  rw [Nat.max_le] at enough
  simp only [Parser.orElse, run n enough.1, run' n enough.2]

/-- A sequence quits with its first part. -/
theorem Quits.bind {f : α → Parser ι κ ε β} (h : p.Quits s k) : (p.bind f).Quits s k := by
  rcases h with ⟨e, rejected⟩ | ⟨cause, faulted⟩
  · exact .inl ⟨e, s, k, rejected.bind⟩
  · exact .inr ⟨cause, faulted.bind_fault⟩

theorem Succeeds.bind_quits {f : α → Parser ι κ ε β} (h : p.Succeeds s k v s' k')
    (hf : (f v).Quits s' k') : (p.bind f).Quits s k := by
  rcases hf with ⟨e, t, c, rejected⟩ | ⟨cause, faulted⟩
  · exact .inl ⟨e, s, k, Replies.bind h rejected⟩
  · exact .inr ⟨cause, Replies.bind h faulted⟩

theorem Quits.map (f : α → β) (h : p.Quits s k) : (p.map f).Quits s k := by
  rcases h with ⟨e, s', k', rejected⟩ | ⟨cause, faulted⟩
  · exact .inl ⟨e, s', k', rejected.map f⟩
  · exact .inr ⟨cause, faulted.map f⟩

theorem Quits.orElse {q : Parser ι κ φ α} (h : p.Quits s k) (hq : q.Terminates s k) :
    (p.orElse q).Terminates s k := by
  rcases h with ⟨e, rejected⟩ | ⟨cause, least, run⟩
  · obtain ⟨r, settled, replies⟩ := hq
    exact ⟨r, settled, rejected.orElse replies⟩
  · refine Quits.terminates (.inr ⟨cause, least, ?_⟩)
    intro n enough
    simp only [Parser.orElse, run n enough]

theorem succeeds_pure (v : α) (s : ι) (k : κ) :
    (pure v : Parser ι κ ε α).Succeeds s k v s k :=
  ⟨0, fun _ _ => rfl⟩

/-! ## Successes one after the other -/

/-- The step leads from a state to another with the listed values. -/
inductive Leads (step : ι → κ → α → ι → κ → Prop) : ι → κ → List α → ι → κ → Prop
  | here (s : ι) (k : κ) : Leads step s k [] s k
  | next {s s' s'' : ι} {k k' k'' : κ} {v : α} {vs : List α} :
      step s k v s' k' → Leads step s' k' vs s'' k'' → Leads step s k (v :: vs) s'' k''

/-- Wherever the step leads, one more of it raises the index, and not beyond the bound. -/
def Climbs (step : ι → κ → α → ι → κ → Prop) (index : ι → κ → Nat) (bound : Nat) (s : ι) (k : κ) :
    Prop :=
  ∀ vs s' k', Leads step s k vs s' k' → ∀ v s'' k'', step s' k' v s'' k'' →
    index s' k' < index s'' k'' ∧ index s'' k'' ≤ bound

/-- The separator succeeds and then `p`, whose value is given. -/
def Continues (p : Parser ι κ ε α) (sep : Parser ι κ ε β) (s : ι) (k : κ) (v : α) (s' : ι)
    (k' : κ) : Prop :=
  ∃ w t c, sep.Succeeds s k w t c ∧ p.Succeeds t c v s' k'

/-- The separator fails, or it succeeds and `p` fails after it. -/
def Stops (p : Parser ι κ ε α) (sep : Parser ι κ ε β) (s : ι) (k : κ) : Prop :=
  (∃ e, sep.Rejects s k e) ∨ ∃ w t c e, sep.Succeeds s k w t c ∧ p.Rejects t c e

section Steps

variable {step : ι → κ → α → ι → κ → Prop}

theorem Leads.mono {step' : ι → κ → α → ι → κ → Prop}
    (sub : ∀ {s k v s' k'}, step s k v s' k' → step' s k v s' k') (h : Leads step s k vs s' k') :
    Leads step' s k vs s' k' := by
  induction h with
  | here s k => exact .here s k
  | next one _ ih => exact .next (sub one) ih

/-- Where a step gives one answer at most, what leads to a state where it gives none is the
longest. -/
theorem Leads.prefix_of_stuck {ws : List α}
    (unique : ∀ {s k v s' k' w s'' k''}, step s k v s' k' → step s k w s'' k'' →
      v = w ∧ s' = s'' ∧ k' = k'')
    (h : Leads step s k vs s' k') (stuck : ∀ v t c, ¬ step s' k' v t c)
    (other : Leads step s k ws s'' k'') : ws <+: vs := by
  induction h generalizing ws with
  | here s k =>
    cases other with
    | here => exact List.prefix_rfl
    | next one _ => exact absurd one (stuck _ _ _)
  | next one _ ih =>
    cases other with
    | here => exact List.nil_prefix
    | next one' later =>
      obtain ⟨rfl, rfl, rfl⟩ := unique one one'
      exact List.cons_prefix_cons.mpr ⟨rfl, ih stuck later⟩

/-- A step that climbs reaches a state where it stops. -/
theorem Climbs.exists_stop {stop : ι → κ → Prop} {index : ι → κ → Nat} {bound : Nat}
    (climbs : Climbs step index bound s k)
    (progress : ∀ vs s' k', Leads step s k vs s' k' →
      (∃ v s'' k'', step s' k' v s'' k'') ∨ stop s' k') :
    ∃ vs s' k', Leads step s k vs s' k' ∧ stop s' k' := by
  -- what is left to climb goes down with every step
  induction left : bound - index s k using Nat.strongRecOn generalizing s k with
  | _ left ih =>
    subst left
    rcases progress [] s k (.here s k) with ⟨v, t, c, one⟩ | stopped
    · obtain ⟨higher, bounded⟩ := climbs [] s k (.here s k) v t c one
      have less : bound - index t c < bound - index s k :=
        Nat.sub_lt_sub_left (Nat.lt_of_lt_of_le higher bounded) higher
      obtain ⟨vs, s', k', later, stopped⟩ := ih _ less
        (fun vs s' k' later => climbs (v :: vs) s' k' (.next one later))
        (fun vs s' k' later => progress (v :: vs) s' k' (.next one later)) rfl
      exact ⟨v :: vs, s', k', .next one later, stopped⟩
    · exact ⟨[], s, k, .here s k, stopped⟩

end Steps

/-! ## Turns of a repetition -/

theorem repeated_ne_failure (p : Parser ι κ ε α) (fuel turns : Nat) (s : ι) (k : κ) :
    p.repeated fuel turns s k ≠ .failure e s' k' := by
  induction turns generalizing s k with
  | zero =>
    intro failed
    cases failed
  | succ turns ih =>
    unfold repeated
    cases p.parse fuel s k with
    | success v t c =>
      dsimp only
      cases again : p.repeated fuel turns t c with
      | failure e' t' c' =>
        intro failed
        rw [Reply.map, Reply.failure.injEq] at failed
        obtain ⟨rfl, rfl, rfl⟩ := failed
        exact ih t c again
      | success | halted =>
        intro failed
        cases failed
    | failure | halted =>
      intro failed
      cases failed

/-- A repetition takes one turn for each value, and one to fail. -/
theorem repeated_of_success {fuel turns turns' : Nat}
    (h : p.repeated fuel turns s k = .success vs s' k') (enough : vs.length < turns') :
    p.repeated fuel turns' s k = .success vs s' k' := by
  induction turns generalizing turns' s k vs with
  | zero => cases h
  | succ turns ih =>
    cases turns' with
    | zero => exact absurd enough (Nat.not_lt_zero _)
    | succ turns' =>
      unfold repeated at h ⊢
      cases one : p.parse fuel s k with
      | success v t c =>
        rw [one] at h
        dsimp only at h ⊢
        cases again : p.repeated fuel turns t c with
        | success vs' t' c' =>
          rw [again, Reply.map, Reply.success.injEq] at h
          obtain ⟨rfl, rfl, rfl⟩ := h
          rw [ih again (Nat.lt_of_succ_lt_succ enough)]
          rfl
        | failure | halted =>
          rw [again] at h
          cases h
      | failure =>
        rw [one] at h
        exact h
      | halted =>
        rw [one] at h
        cases h

/-- With fuel and turns enough a repetition gives the reply. -/
def Repeats (p : Parser ι κ ε α) (s : ι) (k : κ) (r : Reply ι κ ε (List α)) : Prop :=
  ∃ least, ∀ n turns, least ≤ n → least ≤ turns → p.repeated n turns s k = r

theorem Succeeds.repeats {r : Reply ι κ ε (List α)} (h : p.Succeeds s k v s' k')
    (later : p.Repeats s' k' r) : p.Repeats s k (r.map (v :: ·)) := by
  obtain ⟨least, run⟩ := h
  obtain ⟨least', later⟩ := later
  refine ⟨max least (least' + 1), ?_⟩
  intro n turns enough more
  rw [Nat.max_le] at enough more
  obtain ⟨turns, rfl⟩ := Nat.exists_eq_add_of_le' (Nat.le_trans (Nat.le_add_left 1 _) more.2)
  rw [repeated, run n enough.1]
  dsimp only
  rw [later n turns (Nat.le_of_succ_le enough.2) (Nat.le_of_succ_le_succ more.2)]

theorem Rejects.repeats (h : p.Rejects s k e) : p.Repeats s k (.success [] s k) := by
  obtain ⟨s', k', least, run⟩ := h
  refine ⟨least + 1, ?_⟩
  intro n turns enough more
  obtain ⟨turns, rfl⟩ := Nat.exists_eq_add_of_le' (Nat.le_trans (Nat.le_add_left 1 _) more)
  rw [repeated, run n (Nat.le_of_succ_le enough)]

theorem Replies.repeats {cause : Fault} (h : p.Replies s k (.halted (.fault cause))) :
    p.Repeats s k (.halted (.fault cause)) := by
  obtain ⟨least, run⟩ := h
  refine ⟨least + 1, ?_⟩
  intro n turns enough more
  obtain ⟨turns, rfl⟩ := Nat.exists_eq_add_of_le' (Nat.le_trans (Nat.le_add_left 1 _) more)
  rw [repeated, run n (Nat.le_of_succ_le enough)]

/-- Along successes a repetition collects the values. -/
theorem Leads.repeats {r : Reply ι κ ε (List α)} (h : Leads p.Succeeds s k vs s' k')
    (last : p.Repeats s' k' r) : p.Repeats s k (r.map (vs ++ ·)) := by
  induction h with
  | here s k =>
    have same : r.map ([] ++ ·) = r := by cases r <;> rfl
    rwa [same]
  | @next s _ s' k _ k' v vs one _ ih =>
    have same : r.map (v :: vs ++ ·) = (r.map (vs ++ ·)).map (v :: ·) := by cases r <;> rfl
    rw [same]
    exact one.repeats (ih last)

theorem Leads.repeats_rejects (h : Leads p.Succeeds s k vs s' k') (rejected : p.Rejects s' k' e) :
    p.Repeats s k (.success vs s' k') := by
  have collected := h.repeats rejected.repeats
  rwa [Reply.map, List.append_nil] at collected

/-! ## Many -/

theorem parse_many (p : Parser ι κ ε α) (n : Nat) (s : ι) (k : κ) :
    p.many.parse n s k = p.repeated n (n + 1) s k := by
  unfold many many1 orElse
  rw [repeated]
  dsimp only
  cases p.parse n s k with
  | success v t c =>
    dsimp only
    cases again : p.repeated n n t c with
    | success => rfl
    | failure => exact absurd again (repeated_ne_failure p n n t c)
    | halted => rfl
  | failure | halted => rfl

theorem parse_many1 {n : Nat} (h : p.parse n s k = .success v s' k') :
    p.many1.parse n s k = p.repeated n (n + 1) s k := by
  unfold many1
  dsimp only
  rw [repeated, h]

theorem Repeats.many {r : Reply ι κ ε (List α)} (h : p.Repeats s k r) : p.many.Replies s k r := by
  obtain ⟨least, run⟩ := h
  refine ⟨least, ?_⟩
  intro n enough
  rw [parse_many]
  exact run n (n + 1) enough (Nat.le_succ_of_le enough)

theorem Repeats.many1 {r : Reply ι κ ε (List α)} (h : p.Repeats s k r)
    (first : p.Succeeds s k v s' k') : p.many1.Replies s k r := by
  obtain ⟨least, run⟩ := h
  obtain ⟨least', first⟩ := first
  refine ⟨max least least', ?_⟩
  intro n enough
  rw [Nat.max_le] at enough
  rw [parse_many1 (first n enough.2)]
  exact run n (n + 1) enough.1 (Nat.le_succ_of_le enough.1)

theorem Rejects.many1 (h : p.Rejects s k e) : p.many1.Replies s k (.failure e s k) := by
  obtain ⟨s', k', least, run⟩ := h
  refine ⟨least, ?_⟩
  intro n enough
  unfold Parser.many1
  dsimp only
  rw [run n enough]

/-- Where the successes end in a failure or a fault, so does the repetition. -/
theorem Leads.repeats_quits (h : Leads p.Succeeds s k vs s' k') (quits : p.Quits s' k') :
    ∃ r, r ≠ .halted .outOfFuel ∧ p.Repeats s k r := by
  rcases quits with ⟨e, rejected⟩ | ⟨cause, faulted⟩
  · refine ⟨_, ?_, h.repeats_rejects rejected⟩
    intro same
    cases same
  · refine ⟨_, ?_, h.repeats faulted.repeats⟩
    intro same
    cases same

theorem Quits.many1 (h : p.Quits s k) : p.many1.Quits s k := by
  rcases h with ⟨e, rejected⟩ | ⟨cause, least, run⟩
  · exact .inl ⟨e, s, k, rejected.many1⟩
  · refine .inr ⟨cause, least, ?_⟩
    intro n enough
    unfold Parser.many1
    dsimp only
    rw [run n enough]

theorem Climbs.many_terminates {index : ι → κ → Nat} {bound : Nat}
    (climbs : Climbs p.Succeeds index bound s k)
    (ends : ∀ vs s' k', Leads p.Succeeds s k vs s' k' → p.Terminates s' k') :
    p.many1.Terminates s k ∧ p.many.Terminates s k := by
  obtain ⟨vs, s', k', led, stopped⟩ :=
    climbs.exists_stop fun vs s' k' led => (ends vs s' k' led).cases
  obtain ⟨r, settled, repeats⟩ := led.repeats_quits stopped
  refine ⟨?_, r, settled, repeats.many⟩
  cases led with
  | here => exact stopped.many1.terminates
  | next one _ => exact ⟨r, settled, repeats.many1 one⟩

/-! ## The recursive description of `many` -/

/-- `p` and then as many as `p.many` finds, or none. -/
def unrolled (p : Parser ι κ ε α) : Parser ι κ ε (List α) :=
  (p.bind fun v => p.many.map (v :: ·)).orElse (pure [])

/-- The description takes a turn more. -/
theorem parse_unrolled (p : Parser ι κ ε α) (n : Nat) (s : ι) (k : κ) :
    p.unrolled.parse n s k = p.repeated n (n + 2) s k := by
  unfold unrolled orElse bind map
  rw [repeated]
  dsimp only
  cases p.parse n s k with
  | success v t c =>
    dsimp only
    rw [parse_many]
    cases again : p.repeated n (n + 1) t c with
    | success => rfl
    | failure => exact absurd again (repeated_ne_failure p n (n + 1) t c)
    | halted => rfl
  | failure | halted => rfl

theorem Replies.unrolled {r : Reply ι κ ε (List α)} (h : p.many.Replies s k r)
    (settled : r ≠ .halted .outOfFuel) : p.unrolled.Replies s k r := by
  obtain ⟨least, run⟩ := h
  refine ⟨least, ?_⟩
  intro n enough
  have less := run n enough
  rw [parse_many] at less
  rw [parse_unrolled]
  have more : (p.repeated n (n + 1) s k).Extends (p.repeated n (n + 2) s k) :=
    extends_repeated (fun s k => .refl _) (Nat.le_succ (n + 1)) s k
  rw [less] at more
  exact more.eq settled

theorem succeeds_unrolled_iff :
    p.unrolled.Succeeds s k vs s' k' ↔ p.many.Succeeds s k vs s' k' := by
  constructor
  · rintro ⟨least, run⟩
    refine ⟨max least vs.length, ?_⟩
    intro n enough
    rw [Nat.max_le] at enough
    have found := run n enough.1
    rw [parse_unrolled] at found
    rw [parse_many]
    exact repeated_of_success found (Nat.lt_succ_of_le enough.2)
  · intro h
    refine Replies.unrolled h ?_
    intro same
    cases same

/-! ## Separated occurrences -/

theorem Continues.unique {v w : α} (h : Continues p sep s k v s' k')
    (h' : Continues p sep s k w s'' k'') : v = w ∧ s' = s'' ∧ k' = k'' := by
  obtain ⟨_, t, c, one, two⟩ := h
  obtain ⟨_, t', c', one', two'⟩ := h'
  obtain ⟨-, rfl, rfl⟩ := one.unique one'
  exact two.unique two'

theorem Stops.not_continues (h : Stops p sep s k) : ¬ Continues p sep s k v s' k' := by
  rintro ⟨w, t, c, one, two⟩
  rcases h with ⟨e, rejected⟩ | ⟨w', t', c', e, one', rejected⟩
  · exact one.not_rejects rejected
  · obtain ⟨-, rfl, rfl⟩ := one.unique one'
    exact two.not_rejects rejected

theorem Continues.seqRight (h : Continues p sep s k v s' k') :
    (sep.seqRight p).Succeeds s k v s' k' := by
  obtain ⟨w, t, c, one, two⟩ := h
  exact Replies.bind (f := fun _ => p) one two

theorem Stops.seqRight (h : Stops p sep s k) : ∃ e, (sep.seqRight p).Rejects s k e := by
  rcases h with ⟨e, rejected⟩ | ⟨w, t, c, e, one, t', c', rejected⟩
  · exact ⟨e, s, k, rejected.bind⟩
  · exact ⟨e, s, k, Replies.bind (f := fun _ => p) one rejected⟩

/-- The first occurrence and the others, each with its separator. -/
theorem Succeeds.sepBy (first : p.Succeeds s k v t c)
    (others : (sep.seqRight p).many.Succeeds t c vs s' k') :
    (p.sepBy sep).Succeeds s k (v :: vs) s' k' := by
  have all : (p.bind fun v => (sep.seqRight p).many.map (v :: ·)).Succeeds s k (v :: vs) s' k' :=
    Replies.bind (f := fun v => (sep.seqRight p).many.map (v :: ·)) first
      (Replies.map (v :: ·) others)
  exact all.orElse

theorem Leads.sepBy (first : p.Succeeds s k v t c) (h : Leads (Continues p sep) t c vs s' k')
    (stops : Stops p sep s' k') : (p.sepBy sep).Succeeds s k (v :: vs) s' k' := by
  obtain ⟨e, rejected⟩ := stops.seqRight
  have tail := h.mono Continues.seqRight
  exact first.sepBy (tail.repeats_rejects rejected).many

theorem Rejects.sepBy (h : p.Rejects s k e) : (p.sepBy sep).Succeeds s k [] s k := by
  have none : (p.bind fun v => (sep.seqRight p).many.map (v :: ·)).Rejects s k e :=
    ⟨s, k, h.bind⟩
  exact none.orElse (succeeds_pure [] s k)

theorem continues_or_quits (separator : sep.Terminates s k)
    (item : ∀ w t c, sep.Succeeds s k w t c → p.Terminates t c) :
    (∃ v s' k', Continues p sep s k v s' k') ∨ (sep.seqRight p).Quits s k := by
  rcases separator.cases with ⟨w, t, c, separated⟩ | ended
  · rcases (item w t c separated).cases with ⟨v, s', k', found⟩ | ended
    · exact .inl ⟨v, s', k', w, t, c, separated, found⟩
    · exact .inr (separated.bind_quits ended)
  · exact .inr ended.bind

/-- Separated occurrences come to an end where the separator and the parser do and each further
occurrence raises the index. -/
theorem sepBy_terminates {index : ι → κ → Nat} {bound : Nat} (first : p.Terminates s k)
    (climbs : ∀ v t c, p.Succeeds s k v t c → Climbs (Continues p sep) index bound t c)
    (ends : ∀ v t c, p.Succeeds s k v t c → ∀ vs s' k', Leads (Continues p sep) t c vs s' k' →
      sep.Terminates s' k' ∧ ∀ w s'' k'', sep.Succeeds s' k' w s'' k'' → p.Terminates s'' k'') :
    (p.sepBy sep).Terminates s k := by
  have none : (pure [] : Parser ι κ ε (List α)).Terminates s k := (succeeds_pure [] s k).terminates
  rcases first.cases with ⟨v, t, c, one⟩ | ended
  · obtain ⟨vs, s', k', led, stopped⟩ := (climbs v t c one).exists_stop fun vs s' k' led =>
      continues_or_quits (ends v t c one vs s' k' led).1 (ends v t c one vs s' k' led).2
    obtain ⟨r, settled, repeats⟩ := (led.mono Continues.seqRight).repeats_quits stopped
    have tail : (sep.seqRight p).many.Terminates t c := ⟨r, settled, repeats.many⟩
    rcases tail.cases with ⟨vs, s', k', found⟩ | ended
    · exact (one.sepBy found).terminates
    · exact (one.bind_quits (ended.map (v :: ·))).orElse none
  · exact ended.bind.orElse none

/-! ## Streams -/

section Streams

variable {τ : Type}

/-- A step that shortens the input climbs in what has been read of it. -/
theorem climbs_of_shorter {step : List τ → κ → α → List τ → κ → Prop}
    (shorter : ∀ {s k v s' k'}, step s k v s' k' → s'.length < s.length) (s : List τ) (k : κ) :
    Climbs step (fun s' _ => s.length - s'.length) s.length s k := by
  have within : ∀ {s k vs s' k'}, Leads step s k vs s' k' → s'.length ≤ s.length := by
    intro s k vs s' k' led
    induction led with
    | here => exact Nat.le_refl _
    | next one _ ih => exact Nat.le_trans ih (Nat.le_of_lt (shorter one))
  intro vs s' k' led v s'' k'' one
  have less := shorter one
  exact ⟨Nat.sub_lt_sub_left (Nat.lt_of_lt_of_le less (within led)) less, Nat.sub_le _ _⟩

theorem Succeeds.element {accepts : τ → Bool} {error : ε} {s s' : List τ} {k k' : Spot} {x : τ}
    (h : (element accepts error).Succeeds s k x s' k') : s = x :: s' := by
  obtain ⟨least, run⟩ := h
  have found := run least (Nat.le_refl least)
  unfold Parser.element at found
  dsimp only at found
  split at found
  · cases found
  · split at found
    · split at found
      · rw [Reply.success.injEq] at found
        obtain ⟨rfl, rfl, -⟩ := found
        rfl
      · cases found
    · cases found

theorem terminates_element (accepts : τ → Bool) (error : ε) (s : List τ) (k : Spot) :
    (element accepts error).Terminates s k := by
  refine ⟨(element accepts error).parse 0 s k, ?_, 0, fun _ _ => rfl⟩
  intro same
  unfold Parser.element at same
  dsimp only at same
  split at same
  · cases same
  · split at same
    · split at same
      · cases same
      · cases same
    · cases same

end Streams

/-! ## Repetitions in terms of single runs -/

/-- After successes that end in a failure, both repetitions succeed with the values in the state
where they end; when there are none, `many1` fails as its parser does and the others succeed with no
values, all in the state they were given. Separated occurrences end just after the longest run of
them. Repetitions whose successes climb terminate, and `many` is what its recursive description says
wherever it terminates. -/
theorem repetition_runs (p : Parser ι κ ε α) (sep : Parser ι κ ε β) :
    (∀ {s k v vs s' k' e}, Leads p.Succeeds s k (v :: vs) s' k' → p.Rejects s' k' e →
      p.many1.Succeeds s k (v :: vs) s' k' ∧ p.many.Succeeds s k (v :: vs) s' k') ∧
    (∀ {s k e}, p.Rejects s k e →
      p.many1.Replies s k (.failure e s k) ∧ p.many.Succeeds s k [] s k ∧
      (p.sepBy sep).Succeeds s k [] s k) ∧
    (∀ {s k v t c vs s' k'}, p.Succeeds s k v t c → Leads (Continues p sep) t c vs s' k' →
      Stops p sep s' k' →
      (p.sepBy sep).Succeeds s k (v :: vs) s' k' ∧
      ∀ {ws s'' k''}, Leads (Continues p sep) t c ws s'' k'' → ws <+: vs) ∧
    (∀ {index bound s k}, Climbs p.Succeeds index bound s k →
      (∀ vs s' k', Leads p.Succeeds s k vs s' k' → p.Terminates s' k') →
      p.many1.Terminates s k ∧ p.many.Terminates s k) ∧
    (∀ {index bound s k}, p.Terminates s k →
      (∀ v t c, p.Succeeds s k v t c → Climbs (Continues p sep) index bound t c) →
      (∀ v t c, p.Succeeds s k v t c → ∀ vs s' k', Leads (Continues p sep) t c vs s' k' →
        sep.Terminates s' k' ∧ ∀ w s'' k'', sep.Succeeds s' k' w s'' k'' → p.Terminates s'' k'') →
      (p.sepBy sep).Terminates s k) ∧
    p.many.start? = p.unrolled.start? ∧
    (∀ {s k r}, p.many.Replies s k r → r ≠ .halted .outOfFuel → p.unrolled.Replies s k r) ∧
    ∀ {s k vs s' k'}, p.unrolled.Succeeds s k vs s' k' ↔ p.many.Succeeds s k vs s' k' := by
  refine ⟨?runs, ?fails, ?separated, ?terminates, ?separatedTerminates, rfl, ?unrolled,
    succeeds_unrolled_iff⟩
  case runs =>
    intro s k v vs s' k' e led rejected
    have repeats := led.repeats_rejects rejected
    cases led with
    | next one _ => exact ⟨repeats.many1 one, repeats.many⟩
  case fails =>
    intro s k e rejected
    exact ⟨rejected.many1, rejected.repeats.many, rejected.sepBy⟩
  case separated =>
    intro s k v t c vs s' k' first led stops
    refine ⟨led.sepBy first stops, ?_⟩
    intro ws s'' k'' other
    exact led.prefix_of_stuck (fun one one' => one.unique one')
      (fun _ _ _ => stops.not_continues) other
  case terminates =>
    intro index bound s k climbs ends
    exact climbs.many_terminates ends
  case separatedTerminates =>
    intro index bound s k first climbs ends
    exact sepBy_terminates first climbs ends
  case unrolled =>
    intro s k r replies settled
    exact replies.unrolled settled

/-- A digit of a stream. -/
abbrev digitItem : Parser (List Char) Spot Unit Char := element Char.isDigit ()

/-- A comma of a stream. -/
abbrev commaItem : Parser (List Char) Spot Unit Char := element (fun c => c == ',') ()

/-- Digits up to a letter, none of them, and digits between commas, of which the last one stays. -/
theorem repetition_runs_digits :
    (digitItem.many1.Succeeds ['1', '2', 'x'] (.count 0) ['1', '2'] ['x'] (.count 2) ∧
      digitItem.many.Succeeds ['1', '2', 'x'] (.count 0) ['1', '2'] ['x'] (.count 2)) ∧
    digitItem.many1.Replies ['x'] (.count 0) (.failure () ['x'] (.count 0)) ∧
    (digitItem.sepBy commaItem).Succeeds ['1', ',', '2', ',', 'x'] (.count 0) ['1', '2'] [',', 'x']
      (.count 3) ∧
    digitItem.many.Terminates ['1', '2', 'x'] (.count 0) ∧
    (digitItem.sepBy commaItem).Terminates ['1', ',', '2', ',', 'x'] (.count 0) ∧
    digitItem.unrolled.Succeeds ['1', '2', 'x'] (.count 0) ['1', '2'] ['x'] (.count 2) := by
  obtain ⟨runs, fails, separated, ends, separatedEnds, -, unrolls, -⟩ :=
    repetition_runs digitItem commaItem
  have one : digitItem.Succeeds ['1', '2', 'x'] (.count 0) '1' ['2', 'x'] (.count 1) :=
    ⟨0, fun _ _ => rfl⟩
  have two : digitItem.Succeeds ['2', 'x'] (.count 1) '2' ['x'] (.count 2) := ⟨0, fun _ _ => rfl⟩
  have stop : digitItem.Rejects ['x'] (.count 2) () := ⟨['x'], .count 2, 0, fun _ _ => rfl⟩
  have both := runs (.next one (.next two (.here _ _))) stop
  refine ⟨both, (fails ⟨['x'], .count 0, 0, fun _ _ => rfl⟩).1, ?_, ?_, ?_, ?_⟩
  · have first : digitItem.Succeeds ['1', ',', '2', ',', 'x'] (.count 0) '1' [',', '2', ',', 'x']
        (.count 1) := ⟨0, fun _ _ => rfl⟩
    have second : Continues digitItem commaItem [',', '2', ',', 'x'] (.count 1) '2' [',', 'x']
        (.count 3) :=
      ⟨',', ['2', ',', 'x'], .count 2, ⟨0, fun _ _ => rfl⟩, ⟨0, fun _ _ => rfl⟩⟩
    have last : Stops digitItem commaItem [',', 'x'] (.count 3) :=
      .inr ⟨',', ['x'], .count 4, (), ⟨0, fun _ _ => rfl⟩, ['x'], .count 4, 0, fun _ _ => rfl⟩
    exact (separated first (.next second (.here _ _)) last).1
  · have shorter : ∀ {s k v s' k'}, digitItem.Succeeds s k v s' k' → s'.length < s.length := by
      intro s k v s' k' found
      rw [found.element]
      exact Nat.lt_succ_self _
    exact (ends (climbs_of_shorter shorter _ _) fun _ _ _ _ => terminates_element _ _ _ _).2
  · have shorter : ∀ {s k v s' k'}, Continues digitItem commaItem s k v s' k' →
        s'.length < s.length := by
      rintro s k v s' k' ⟨w, t, c, separator, found⟩
      rw [separator.element, found.element]
      exact Nat.lt_succ_of_lt (Nat.lt_succ_self _)
    have climbs : ∀ v t c, digitItem.Succeeds ['1', ',', '2', ',', 'x'] (.count 0) v t c →
        Climbs (Continues digitItem commaItem) (fun s' _ => 4 - s'.length) 4 t c := by
      intro v t c one
      have rest := one.element
      rw [List.cons.injEq] at rest
      rw [← rest.2]
      exact climbs_of_shorter shorter _ _
    refine separatedEnds (terminates_element _ _ _ _) climbs ?_
    intro v t c _ vs s' k' _
    exact ⟨terminates_element _ _ _ _, fun _ _ _ _ => terminates_element _ _ _ _⟩
  · refine unrolls both.2 ?_
    intro same
    cases same

end Parser

end Reckoner
