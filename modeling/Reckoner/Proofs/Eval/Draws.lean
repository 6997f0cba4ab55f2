import Reckoner.Proofs.Eval.Dependence

/-!
# What an evaluation draws

A function draws its random numbers when it is called, and an expression that has a value has been
evaluated in all its parts. So how many random numbers an expression draws can be read off it, and
which numbers these are makes no difference to that. An expression that draws none has the same
value or error whatever there is to draw, and leaves all of it.
-/

namespace Reckoner

namespace Run

variable {α β : Type} {r : Run α} {f : α → Run β} {m n : Nat}

/-! ## Runs that draw so many numbers -/

/-- A run that has drawn so many random numbers when it returns. -/
def Takes (count : Nat) (r : Run α) : Prop :=
  ∀ draws v, (r draws).outcome = .ok v → (r draws).draws = draws.drop count

theorem Takes.bind (h : r.Takes m) (next : ∀ v, (f v).Takes n) : (r >>= f).Takes (m + n) := by
  intro draws w returned
  cases outcome : (r draws).outcome with
  | error stop =>
    rw [bind_of_error outcome] at returned
    cases returned
  | ok v =>
    rw [bind_of_ok outcome, h draws v outcome] at returned ⊢
    exact (next v _ w returned).trans (Draws.drop_drop m n draws)

theorem takes_stop (count : Nat) (e : EvalError) : (stop e : Run α).Takes count :=
  fun _ _ => nofun

theorem takes_of (outcome : Except Stop α) : (of outcome).Takes 0 :=
  fun _ _ _ => rfl

theorem takes_ofHost (answer : Except HostFault α) : (ofHost answer).Takes 0 := by
  cases answer with
  | error _ => exact takes_of _
  | ok _ => exact takes_of _

theorem takes_ofCheck (answer : Except EvalError α) : (ofCheck answer).Takes 0 := by
  cases answer with
  | error _ => exact takes_of _
  | ok _ => exact takes_of _

theorem takes_ask (index : Float) (answer : Except HostFault α) : (ask index answer).Takes 0 :=
  takes_ofHost answer

theorem takes_draw (count : Nat) : (draw count).Takes count :=
  fun _ _ _ => rfl

theorem takes_note (debug : Bool) (line : String) : (note debug line).Takes 0 :=
  fun _ _ _ => rfl

/-- What draws nothing may stand in front. -/
theorem Takes.after (h : r.Takes 0) (next : ∀ v, (f v).Takes n) : (r >>= f).Takes n := by
  rw [← Nat.zero_add n]
  exact h.bind next

/-! ## Runs that draw nothing -/

/-- A run that becomes the same whatever there is to draw, and leaves all of it. -/
def Still (r : Run α) : Prop :=
  ∀ draws draws', r draws' = { r draws with draws := draws' }

theorem Still.outcome (h : r.Still) (draws draws' : Draws) :
    (r draws').outcome = (r draws).outcome := by
  rw [h draws draws']

theorem Still.draws (h : r.Still) (draws : Draws) : (r draws).draws = draws := by
  rw [h draws draws]

/-- What is still and returns a value on some draws returns it on all. -/
theorem Still.equivalent_of {draws : Draws} {v : α} (h : r.Still)
    (returned : (r draws).outcome = .ok v) : r.Equivalent (of (.ok v)) :=
  fun draws' => ⟨(h.outcome draws draws').trans returned, h.draws draws'⟩

theorem keeps_still (debug : Bool) : Keeps debug Still where
  bind {_ _ r _} h next := by
    intro draws draws'
    cases outcome : (r draws).outcome with
    | error stop =>
      rw [bind_of_error outcome, bind_of_error ((h.outcome draws draws').trans outcome),
        h draws draws']
    | ok v =>
      rw [bind_of_ok outcome, bind_of_ok ((h.outcome draws draws').trans outcome),
        h.draws draws', h draws draws', next v (r draws).draws draws']
  of _ _ _ := rfl
  ask _ answer _ _ := by cases answer <;> rfl
  note _ _ _ := rfl

theorem still_draw {count : Nat} (nothing : count = 0) : (draw count).Still := by
  subst nothing
  intro draws draws'
  have same : (fun place : Fin 0 => draws'.number place.val) =
      fun place => draws.number place.val :=
    funext fun place => place.elim0
  unfold draw
  rw [same]
  rfl

end Run

/-! ## How many numbers an expression draws -/

namespace Expr

open Run

mutual
/-- How many random numbers an expression draws when it has a value. -/
def draws (env : Environment) : Expr → Nat
  | number _ | var _ | foreign _ => 0
  | external index => index.draws env
  | call name args => allDraws env args + ((env.resolve? name).map Function.draws).getD 0
  | binary _ a b _ => a.draws env + b.draws env

/-- How many random numbers the listed expressions draw. -/
def allDraws (env : Environment) : List Expr → Nat
  | [] => 0
  | a :: args => a.draws env + allDraws env args
end

variable {debug : Bool} {env : Environment}

theorem takes_call (function : Function) (name : String) (values : List Float) :
    (function.call debug name values).Takes function.draws := by
  unfold Function.call
  refine (takes_ofCheck _).after fun _ => ?_
  refine (takes_draw function.draws).bind (n := 0) fun drawn => ?_
  refine (takes_ofHost _).after fun value => ?_
  exact (takes_note debug _).after fun _ => takes_of _

mutual
theorem takes_evaluate : ∀ e : Expr, (e.evaluate debug env).Takes (e.draws env)
  | number x => by
    rw [evaluate, draws]
    exact (takes_note debug _).after fun _ => takes_of _
  | var name => by
    rw [evaluate, draws]
    refine (takes_note debug _).after fun _ => ?_
    cases env.vars.get? name with
    | none => exact takes_stop _ _
    | some value => exact (takes_note debug _).after fun _ => takes_ofHost _
  | external index => by
    rw [evaluate, draws]
    refine (takes_note debug _).after fun _ => (takes_evaluate index).bind (n := 0) fun i => ?_
    cases env.lookup? with
    | none => exact takes_stop _ _
    | some lookup =>
      refine (takes_ask _ _).after fun found => (takes_ofHost _).after fun value => ?_
      exact (takes_note debug _).after fun _ => takes_of _
  | call name args => by
    rw [evaluate, draws]
    refine (takes_note debug _).after fun _ => ?_
    cases env.resolve? name with
    | none => exact takes_stop _ _
    | some function =>
      exact (takes_evaluateAll args).bind fun values => takes_call function name values
  | binary symbol a b _ => by
    rw [evaluate, draws]
    refine (takes_note debug _).after fun _ => ?_
    cases Operation.ofSymbol? symbol with
    | none => exact takes_stop _ _
    | some operation =>
      refine (takes_evaluate a).bind fun x => (takes_evaluate b).bind (n := 0) fun y => ?_
      exact (takes_note debug _).after fun _ => takes_of _
  | foreign value => by
    rw [evaluate, draws]
    exact (takes_note debug _).after fun _ => takes_stop _ _

theorem takes_evaluateAll : ∀ args : List Expr,
    (evaluateAll debug env args).Takes (allDraws env args)
  | [] => takes_of _
  | a :: args => by
    rw [evaluateAll, allDraws]
    refine (takes_evaluate a).bind fun value => ?_
    exact (takes_evaluateAll args).bind (n := 0) fun values => takes_of _
end

mutual
theorem draws_eq_zero_iff : ∀ e : Expr,
    e.draws env = 0 ↔ ∀ name ∈ e.callees, ∀ f, env.resolve? name = some f → f.draws = 0
  | number _ | var _ | foreign _ => iff_of_true rfl nofun
  | external index => draws_eq_zero_iff index
  | call name args => by
    rw [draws, callees, List.forall_mem_cons, Nat.add_eq_zero_iff, allDraws_eq_zero_iff args,
      and_comm]
    refine and_congr_left' ?_
    cases env.resolve? name with
    | none => exact iff_of_true rfl nofun
    | some f => simp
  | binary _ a b _ => by
    rw [draws, callees, List.forall_mem_append, Nat.add_eq_zero_iff, draws_eq_zero_iff a,
      draws_eq_zero_iff b]

theorem allDraws_eq_zero_iff : ∀ args : List Expr,
    allDraws env args = 0 ↔
      ∀ name ∈ allCallees args, ∀ f, env.resolve? name = some f → f.draws = 0
  | [] => iff_of_true rfl nofun
  | a :: args => by
    rw [allDraws, allCallees, List.forall_mem_append, Nat.add_eq_zero_iff, draws_eq_zero_iff a,
      allDraws_eq_zero_iff args]
end

/-- An expression that draws nothing has the same value or error whatever there is to draw. -/
theorem still_evaluate (e : Expr) (nothing : e.draws env = 0) : (e.evaluate debug env).Still :=
  keeps_evaluate (keeps_still debug) e fun name called f own =>
    still_draw ((draws_eq_zero_iff e).mp nothing name called f own)

end Expr

end Reckoner
