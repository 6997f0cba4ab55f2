import Reckoner.Eval.Run

/-!
# Runs in sequence

A run followed by another one stops where the first of the two stops, and the second one draws the
random numbers that the first one left. What becomes of the two (what the host was asked for, the
trace, the outcome) is made of the same parts of each, so every part can be followed through an
evaluation without the others.
-/

namespace Reckoner

/-- Runs that asked the host for the same indices, have the same outcome and left the same random
numbers. -/
structure Course.Alike {α : Type} (c c' : Course α) : Prop where
  asked : c.asked = c'.asked
  outcome : c.outcome = c'.outcome
  draws : c.draws = c'.draws

namespace Run

variable {α β : Type} {r r' : Run α} {f g : α → Run β} {draws : Draws}

theorem bind_of_error {stop : Stop} (h : (r draws).outcome = .error stop) :
    (r >>= f) draws = ⟨(r draws).asked, (r draws).trace, .error stop, (r draws).draws⟩ := by
  change follow (r draws) f = _
  rw [follow, h]

theorem bind_of_ok {v : α} (h : (r draws).outcome = .ok v) :
    (r >>= f) draws =
      ⟨(r draws).asked ++ (f v (r draws).draws).asked,
        (r draws).trace ++ (f v (r draws).draws).trace,
        (f v (r draws).draws).outcome, (f v (r draws).draws).draws⟩ := by
  change follow (r draws) f = _
  rw [follow, h]

/-! ## Outcomes -/

theorem outcome_bind_eq_ok {w : β} (h : ((r >>= f) draws).outcome = .ok w) :
    ∃ v, (r draws).outcome = .ok v ∧ (f v (r draws).draws).outcome = .ok w := by
  cases outcome : (r draws).outcome with
  | error stop =>
    rw [bind_of_error outcome] at h
    cases h
  | ok v =>
    rw [bind_of_ok outcome] at h
    exact ⟨v, rfl, h⟩

/-- Runs that have the same outcome and leave the same random numbers when they have the same. -/
def Equivalent (r r' : Run α) : Prop :=
  ∀ draws, (r draws).outcome = (r' draws).outcome ∧ (r draws).draws = (r' draws).draws

theorem Equivalent.refl (r : Run α) : r.Equivalent r :=
  fun _ => ⟨rfl, rfl⟩

theorem Equivalent.bind (h : r.Equivalent r') (next : ∀ v, (f v).Equivalent (g v)) :
    (r >>= f).Equivalent (r' >>= g) := by
  intro draws
  obtain ⟨same, left⟩ := h draws
  cases outcome : (r draws).outcome with
  | error stop =>
    rw [bind_of_error outcome, bind_of_error (same.symm.trans outcome)]
    exact ⟨rfl, left⟩
  | ok v =>
    rw [bind_of_ok outcome, bind_of_ok (same.symm.trans outcome), left]
    exact next v _

/-! ## Runs up to their traces -/

/-- Runs that become the same up to their traces when they have the same random numbers. -/
def Alike (r r' : Run α) : Prop :=
  ∀ draws, (r draws).Alike (r' draws)

theorem Alike.refl (r : Run α) : r.Alike r :=
  fun _ => ⟨rfl, rfl, rfl⟩

theorem Alike.equivalent (h : r.Alike r') : r.Equivalent r' :=
  fun draws => ⟨(h draws).outcome, (h draws).draws⟩

theorem alike_note {debug debug' : Bool} {line line' : String} :
    (note debug line).Alike (note debug' line') :=
  fun _ => ⟨rfl, rfl, rfl⟩

theorem Alike.bind (h : r.Alike r') (next : ∀ v, (f v).Alike (g v)) :
    (r >>= f).Alike (r' >>= g) := by
  intro draws
  obtain ⟨same, left⟩ := h.equivalent.bind (fun v => (next v).equivalent) draws
  refine ⟨?_, same, left⟩
  obtain ⟨asked, same, left⟩ := h draws
  cases outcome : (r draws).outcome with
  | error stop =>
    rw [bind_of_error outcome, bind_of_error (same.symm.trans outcome)]
    exact asked
  | ok v =>
    rw [bind_of_ok outcome, bind_of_ok (same.symm.trans outcome), asked, left]
    exact congrArg (_ ++ ·) (next v _).asked

/-! ## Properties kept in sequence -/

/-- A property of runs that is kept in sequence, and that the single steps of an evaluation have. -/
structure Keeps (debug : Bool) (P : ∀ {α : Type}, Run α → Prop) : Prop where
  bind : ∀ {α β : Type} {r : Run α} {f : α → Run β}, P r → (∀ v, P (f v)) → P (r >>= f)
  of : ∀ {α : Type} (outcome : Except Stop α), P (of outcome)
  ask : ∀ {α : Type} (index : Float) (answer : Except HostFault α), P (ask index answer)
  note : ∀ line : String, P (note debug line)

variable {debug : Bool} {P : ∀ {α : Type}, Run α → Prop}

theorem Keeps.ofHost (h : Keeps debug P) : ∀ answer : Except HostFault α, P (ofHost answer)
  | .error _ => h.of _
  | .ok _ => h.of _

theorem Keeps.ofCheck (h : Keeps debug P) : ∀ answer : Except EvalError α, P (ofCheck answer)
  | .error _ => h.of _
  | .ok _ => h.of _

/-- A run without a trace, whatever it draws. -/
def Quiet (r : Run α) : Prop :=
  ∀ draws, (r draws).trace = []

theorem keeps_quiet : Keeps false Quiet where
  bind {_ _ r _} h next := by
    intro draws
    cases outcome : (r draws).outcome with
    | error stop =>
      rw [bind_of_error outcome]
      exact h draws
    | ok v =>
      rw [bind_of_ok outcome, h draws, List.nil_append]
      exact next v _
  of _ _ := rfl
  ask _ answer _ := by cases answer <;> rfl
  note _ _ := rfl

theorem quiet_draw (count : Nat) : (draw count).Quiet :=
  fun _ => rfl

end Run

end Reckoner
