import Reckoner.Parser.Recursion
import Reckoner.Parser.Text

/-!
# How runs on a text end

`Ends` describes one run: what holds of the value and the place of a success, of the error of a
failure, and of the cause of a halt. A success leaves the text as it was. Each combinator has one
lemma, which asks of its parts what it needs and nothing about how they are made, so a description
is carried through a grammar rule by rule, from primitives that are described once.

A repetition is described by an invariant of the places between its turns. The invariant may count
the turns that are left: with none left the run halts out of fuel, so an invariant that is never
met there shows that it does not.
-/

namespace Reckoner

variable {ι κ ε φ α β : Type}

/-- What holds of a reply to a run on `text`: of its value and context, its error, or its cause. -/
inductive Reply.Ending (text : ι) (good : α → κ → Prop) (bad : ε → Prop) (stop : Halt → Prop) :
    Reply ι κ ε α → Prop
  | success {v : α} {q : κ} : good v q → Ending text good bad stop (.success v text q)
  | failure {e : ε} {rest : ι} {q : κ} : bad e → Ending text good bad stop (.failure e rest q)
  | halted {cause : Halt} : stop cause → Ending text good bad stop (.halted cause)

namespace Reply

variable {text : ι} {good good' : α → κ → Prop} {bad bad' : ε → Prop} {stop : Halt → Prop}
  {reply : Reply ι κ ε α}

theorem Ending.mono (h : reply.Ending text good bad stop) (hg : ∀ v q, good v q → good' v q)
    (hb : ∀ e, bad e → bad' e) : reply.Ending text good' bad' stop := by
  cases h with
  | success hv => exact .success (hg _ _ hv)
  | failure he => exact .failure (hb _ he)
  | halted hc => exact .halted hc

theorem Ending.map {good : β → κ → Prop} (f : α → β)
    (h : reply.Ending text (fun v q => good (f v) q) bad stop) :
    (reply.map f).Ending text good bad stop := by
  cases h with
  | success hv => exact .success hv
  | failure he => exact .failure he
  | halted hc => exact .halted hc

end Reply

namespace Parser

/-- How the run of `p` on `text` at `place` ends. -/
def Ends (p : Parser ι κ ε α) (n : Nat) (text : ι) (place : κ) (good : α → κ → Prop)
    (bad : ε → Prop) (stop : Halt → Prop) : Prop :=
  (p.parse n text place).Ending text good bad stop

variable {p : Parser ι κ ε α} {n : Nat} {text : ι} {place : κ} {good good' : α → κ → Prop}
  {bad bad' : ε → Prop} {stop : Halt → Prop}

theorem Ends.mono (h : p.Ends n text place good bad stop) (hg : ∀ v q, good v q → good' v q)
    (hb : ∀ e, bad e → bad' e) : p.Ends n text place good' bad' stop :=
  Reply.Ending.mono h hg hb

theorem ends_pure {v : α} (h : good v place) :
    (pure v : Parser ι κ ε α).Ends n text place good bad stop :=
  .success h

theorem Ends.map {good : β → κ → Prop} (f : α → β)
    (h : p.Ends n text place (fun v q => good (f v) q) bad stop) :
    (p.map f).Ends n text place good bad stop :=
  Reply.Ending.map f h

theorem Ends.mapError {bad : φ → Prop} (f : ε → φ)
    (h : p.Ends n text place good (fun e => bad (f e)) stop) :
    (p.mapError f).Ends n text place good bad stop := by
  simp only [Ends, Parser.mapError] at h ⊢
  generalize p.parse n text place = reply at h ⊢
  cases h with
  | success hv => exact .success hv
  | failure he => exact .failure he
  | halted hc => exact .halted hc

/-! ## One parser after another -/

/-- The second parser runs where the first one ends. -/
theorem Ends.bind {f : α → Parser ι κ ε β} {good' : β → κ → Prop}
    (h : p.Ends n text place good bad stop)
    (hf : ∀ v q, good v q → (f v).Ends n text q good' bad stop) :
    (p.bind f).Ends n text place good' bad stop := by
  simp only [Ends, Parser.bind] at h ⊢
  generalize p.parse n text place = reply at h ⊢
  cases h with
  | @success v q hv =>
    have later := hf v q hv
    simp only [Ends] at later ⊢
    generalize (f v).parse n text q = reply at later ⊢
    cases later with
    | success hw => exact .success hw
    | failure he => exact .failure he
    | halted hc => exact .halted hc
  | failure he => exact .failure he
  | halted hc => exact .halted hc

/-! ## Choices -/

/-- The error of the first alternative is dropped. -/
theorem Ends.orElse {q : Parser ι κ φ α} {bad' : φ → Prop}
    (h : p.Ends n text place good bad stop) (hq : q.Ends n text place good bad' stop) :
    (p.orElse q).Ends n text place good bad' stop := by
  simp only [Ends, Parser.orElse] at h ⊢
  generalize p.parse n text place = reply at h ⊢
  cases h with
  | success hv => exact .success hv
  | failure _ => exact hq
  | halted hc => exact .halted hc

theorem Ends.firstOf {others : List (Parser ι κ ε α)} (h : p.Ends n text place good bad stop)
    (hs : ∀ q ∈ others, q.Ends n text place good bad stop) :
    (firstOf p others).Ends n text place good bad stop := by
  induction others generalizing p with
  | nil => exact h
  | cons q others ih =>
    exact ih (h.orElse (hs q List.mem_cons_self)) fun r hr => hs r (List.mem_cons_of_mem q hr)

/-- The error to report is one of the two. -/
theorem further_of_both [Reaching ε] {a b : ε} (ha : bad a) (hb : bad b) : bad (further a b) := by
  unfold further
  split
  · exact hb
  · exact ha

/-- The error that is reported is that of one of the alternatives. -/
theorem ending_tryFarthest [Reaching ε] {others : List (Parser ι κ ε α)} {worst : ε}
    (hs : ∀ q ∈ others, q.Ends n text place good bad stop) (hw : bad worst) :
    (tryFarthest n text place worst others).Ending text good bad stop := by
  induction others generalizing worst with
  | nil => exact .failure hw
  | cons q others ih =>
    have first := hs q List.mem_cons_self
    unfold Ends at first
    unfold tryFarthest
    generalize q.parse n text place = reply at first ⊢
    cases first with
    | success hv => exact .success hv
    | failure he =>
      exact ih (fun r hr => hs r (List.mem_cons_of_mem q hr)) (further_of_both hw he)
    | halted hc => exact .halted hc

theorem Ends.farthestOf [Placed κ] [Reaching ε] {others : List (Parser ι κ ε α)}
    (h : p.Ends n text place good bad stop)
    (hs : ∀ q ∈ others, q.Ends n text place good bad stop) :
    (farthestOf p others).Ends n text place good bad stop := by
  simp only [Ends, Parser.farthestOf] at h ⊢
  generalize p.parse n text place = reply at h ⊢
  cases h with
  | success hv => exact .success hv
  | failure he => exact ending_tryFarthest hs he
  | halted hc => exact .halted hc

/-! ## Repetitions -/

section Repetition

variable {inv : Nat → κ → Prop} {stays : κ → Prop}

/-- Some turns of a repetition: `inv t` holds of the places where `t` turns are left. -/
theorem ending_repeated (out : ∀ q, inv 0 q → stop .outOfFuel)
    (done : ∀ t q, inv (t + 1) q → stays q)
    (turn : ∀ t q, inv (t + 1) q → p.Ends n text q (fun _ q' => inv t q') bad stop) (turns : Nat)
    (h : inv turns place) :
    (p.repeated n turns text place).Ending text (fun _ q => stays q) bad' stop := by
  induction turns generalizing place with
  | zero => exact .halted (out place h)
  | succ turns ih =>
    have first := turn turns place h
    unfold Ends at first
    unfold repeated
    generalize p.parse n text place = reply at first ⊢
    cases first with
    | success hq => exact .map _ (ih hq)
    | failure _ => exact .success (done turns place h)
    | halted hc => exact .halted hc

/-- The first turn of a repetition may fail. -/
theorem Ends.many1 (inv : Nat → κ → Prop)
    (h : p.Ends n text place (fun _ q => inv n q) bad stop)
    (out : ∀ q, inv 0 q → stop .outOfFuel) (done : ∀ t q, inv (t + 1) q → stays q)
    (turn : ∀ t q, inv (t + 1) q → p.Ends n text q (fun _ q' => inv t q') bad stop) :
    p.many1.Ends n text place (fun _ q => stays q) bad stop := by
  simp only [Ends, Parser.many1] at h ⊢
  generalize p.parse n text place = reply at h ⊢
  cases h with
  | success hq => exact .map _ (ending_repeated out done turn n hq)
  | failure he => exact .failure he
  | halted hc => exact .halted hc

end Repetition

end Parser

end Reckoner
