import Mathlib.Control.Monad.Basic
import Reckoner.Eval.Basic
import Reckoner.Proofs.Eval.Run

/-!
# What an evaluation depends on

An evaluation reads its environment at the names that occur in the expression and nowhere else, and
of a variable it takes the double. So with the same random numbers to draw, two environments that
agree on these names give the same value or the same error, the host is asked for the same indices,
and the same random numbers are left. Only the trace may differ: it shows numbers as the host writes
them, and is there only when it is asked for.
-/

namespace Reckoner

/-! ## The names in an expression -/

namespace Expr

mutual
/-- The variables in an expression. -/
def freeVariables : Expr → List String
  | number _ | foreign _ => []
  | var name => [name]
  | external index => index.freeVariables
  | call _ args => allFreeVariables args
  | binary _ a b _ => a.freeVariables ++ b.freeVariables

/-- The variables in the listed expressions. -/
def allFreeVariables : List Expr → List String
  | [] => []
  | a :: args => a.freeVariables ++ allFreeVariables args
end

mutual
/-- The names of the functions that an expression calls. -/
def callees : Expr → List String
  | number _ | var _ | foreign _ => []
  | external index => index.callees
  | call name args => name :: allCallees args
  | binary _ a b _ => a.callees ++ b.callees

/-- The names of the functions that the listed expressions call. -/
def allCallees : List Expr → List String
  | [] => []
  | a :: args => a.callees ++ allCallees args
end

end Expr

/-- Two environments agree on some variables, which have the same doubles, on some functions, and on
the lookup. -/
structure Environment.AgreeOn (vars functions : List String) (env env' : Environment) : Prop where
  vars : ∀ name ∈ vars,
    (env.vars.get? name).map Quantity.toFloat = (env'.vars.get? name).map Quantity.toFloat
  functions : ∀ name ∈ functions, env.resolve? name = env'.resolve? name
  lookup : env.lookup? = env'.lookup?

namespace Environment

variable {vars vars' functions functions' : List String} {env env' : Environment}

theorem AgreeOn.refl (vars functions : List String) (env : Environment) :
    AgreeOn vars functions env env :=
  ⟨fun _ _ => rfl, fun _ _ => rfl, rfl⟩

theorem AgreeOn.mono (h : AgreeOn vars functions env env') (hv : vars' ⊆ vars)
    (hf : functions' ⊆ functions) : AgreeOn vars' functions' env env' :=
  ⟨fun name mem => h.vars name (hv mem), fun name mem => h.functions name (hf mem), h.lookup⟩

theorem AgreeOn.left (h : AgreeOn (vars ++ vars') (functions ++ functions') env env') :
    AgreeOn vars functions env env' :=
  h.mono (List.subset_append_left _ _) (List.subset_append_left _ _)

theorem AgreeOn.right (h : AgreeOn (vars ++ vars') (functions ++ functions') env env') :
    AgreeOn vars' functions' env env' :=
  h.mono (List.subset_append_right _ _) (List.subset_append_right _ _)

/-- A variable that is not looked at may be bound to anything. -/
theorem agreeOn_set_var {name : String} (h : name ∉ vars) (value : Quantity) :
    AgreeOn vars functions { env with vars := env.vars.set name value } env := by
  refine ⟨fun other mem => ?_, fun _ _ => rfl, rfl⟩
  have different : other ≠ name := fun same => h (same ▸ mem)
  rw [Bindings.get?_set_of_ne different]

/-- A function that is not called may be hidden or replaced. -/
theorem agreeOn_set_function {name : String} (h : name ∉ functions) (entry : Option Function) :
    AgreeOn vars functions { env with functions := env.functions.set name entry } env := by
  refine ⟨fun _ _ => rfl, fun other mem => ?_, rfl⟩
  have different : other ≠ name := fun same => h (same ▸ mem)
  unfold resolve?
  rw [Bindings.get?_set_of_ne different]

end Environment

/-! ## Evaluation in environments that agree -/

namespace Expr

open Environment (AgreeOn)

variable (debug debug' : Bool) {env env' : Environment}

theorem call_alike (function : Function) (name : String) (values : List Float) :
    (function.call debug name values).Alike (function.call debug' name values) := by
  unfold Function.call
  refine (Run.Alike.refl _).bind fun _ => (Run.Alike.refl _).bind fun drawn => ?_
  refine (Run.Alike.refl _).bind fun value => ?_
  exact Run.alike_note.bind fun _ => .refl _

mutual
theorem evaluate_alike : ∀ e : Expr, AgreeOn e.freeVariables e.callees env env' →
    (e.evaluate debug env).Alike (e.evaluate debug' env')
  | number x, _ => by
    rw [evaluate, evaluate]
    exact Run.alike_note.bind fun _ => .refl _
  | var name, h => by
    rw [evaluate, evaluate]
    refine Run.alike_note.bind fun _ => ?_
    -- bound in both or in neither, and the traces may show the same double in different ways
    have same := h.vars name List.mem_cons_self
    cases own : env.vars.get? name with
    | none =>
      rw [own, Option.map_none, eq_comm, Option.map_eq_none_iff] at same
      rw [same]
      exact .refl _
    | some value =>
      rw [own, Option.map_some, eq_comm, Option.map_eq_some_iff] at same
      obtain ⟨value', own', same⟩ := same
      rw [own']
      refine Run.alike_note.bind fun _ => ?_
      rw [same]
      exact .refl _
  | external index, h => by
    rw [evaluate, evaluate, ← h.lookup]
    refine Run.alike_note.bind fun _ => (evaluate_alike index h).bind fun i => ?_
    cases env.lookup? with
    | none => exact .refl _
    | some lookup =>
      refine (Run.Alike.refl _).bind fun found => (Run.Alike.refl _).bind fun value => ?_
      exact Run.alike_note.bind fun _ => .refl _
  | call name args, h => by
    have inside : AgreeOn (allFreeVariables args) (allCallees args) env env' :=
      h.mono (List.Subset.refl _) (List.subset_cons_self _ _)
    rw [evaluate, evaluate, ← h.functions name List.mem_cons_self]
    refine Run.alike_note.bind fun _ => ?_
    cases env.resolve? name with
    | none => exact .refl _
    | some function =>
      exact (evaluateAll_alike args inside).bind fun values =>
        call_alike debug debug' function name values
  | binary symbol a b _, h => by
    rw [evaluate, evaluate]
    refine Run.alike_note.bind fun _ => ?_
    cases Operation.ofSymbol? symbol with
    | none => exact .refl _
    | some operation =>
      refine (evaluate_alike a h.left).bind fun x => (evaluate_alike b h.right).bind fun y => ?_
      exact Run.alike_note.bind fun _ => .refl _
  | foreign value, _ => by
    rw [evaluate, evaluate]
    exact Run.alike_note.bind fun _ => .refl _

theorem evaluateAll_alike : ∀ args : List Expr,
    AgreeOn (allFreeVariables args) (allCallees args) env env' →
      (evaluateAll debug env args).Alike (evaluateAll debug' env' args)
  | [], _ => .refl _
  | a :: args, h => by
    rw [evaluateAll, evaluateAll]
    refine (evaluate_alike a h.left).bind fun value => ?_
    exact (evaluateAll_alike args h.right).bind fun values => .refl _
end

/-- The trace has no part in the outcome. -/
theorem outcome_evaluate (e : Expr) (env : Environment) (draws : Draws) :
    (e.evaluate debug env draws).outcome = (e.evaluate debug' env draws).outcome :=
  (evaluate_alike debug debug' e (.refl _ _ env) draws).outcome

section Keeps

variable {debug : Bool} {P : ∀ {α : Type}, Run α → Prop}

theorem keeps_call (h : Run.Keeps debug P) {function : Function} (name : String)
    (values : List Float) (own : P (Run.draw function.draws)) :
    P (function.call debug name values) := by
  unfold Function.call
  refine h.bind (h.ofCheck _) fun _ => h.bind own fun drawn => ?_
  exact h.bind (h.ofHost _) fun value => h.bind (h.note _) fun _ => h.of _

mutual
/-- An evaluation has every property that is kept in sequence, if the draws of its calls do. -/
theorem keeps_evaluate (h : Run.Keeps debug P) : ∀ e : Expr,
    (∀ name ∈ e.callees, ∀ f, env.resolve? name = some f → P (Run.draw f.draws)) →
      P (e.evaluate debug env)
  | number x, _ => by
    rw [evaluate]
    exact h.bind (h.note _) fun _ => h.of _
  | var name, _ => by
    rw [evaluate]
    refine h.bind (h.note _) fun _ => ?_
    cases env.vars.get? name with
    | none => exact h.of _
    | some value => exact h.bind (h.note _) fun _ => h.ofHost _
  | external index, calls => by
    rw [evaluate]
    refine h.bind (h.note _) fun _ => h.bind (keeps_evaluate h index calls) fun i => ?_
    cases env.lookup? with
    | none => exact h.of _
    | some lookup =>
      refine h.bind (h.ask _ _) fun found => h.bind (h.ofHost _) fun value => ?_
      exact h.bind (h.note _) fun _ => h.of _
  | call name args, calls => by
    obtain ⟨own, inside⟩ := List.forall_mem_cons.mp calls
    rw [evaluate]
    refine h.bind (h.note _) fun _ => ?_
    cases resolved : env.resolve? name with
    | none => exact h.of _
    | some function =>
      refine h.bind (keeps_evaluateAll h args inside) fun values => ?_
      exact keeps_call h name values (own function resolved)
  | binary symbol a b _, calls => by
    obtain ⟨left, right⟩ := List.forall_mem_append.mp calls
    rw [evaluate]
    refine h.bind (h.note _) fun _ => ?_
    cases Operation.ofSymbol? symbol with
    | none => exact h.of _
    | some operation =>
      refine h.bind (keeps_evaluate h a left) fun x => h.bind (keeps_evaluate h b right) fun y => ?_
      exact h.bind (h.note _) fun _ => h.of _
  | foreign value, _ => by
    rw [evaluate]
    exact h.bind (h.note _) fun _ => h.of _

theorem keeps_evaluateAll (h : Run.Keeps debug P) : ∀ args : List Expr,
    (∀ name ∈ allCallees args, ∀ f, env.resolve? name = some f → P (Run.draw f.draws)) →
      P (evaluateAll debug env args)
  | [], _ => h.of _
  | a :: args, calls => by
    obtain ⟨first, others⟩ := List.forall_mem_append.mp calls
    rw [evaluateAll]
    refine h.bind (keeps_evaluate h a first) fun value => ?_
    exact h.bind (keeps_evaluateAll h args others) fun values => h.of _
end

end Keeps

/-- Without `debug` there is no trace. -/
theorem quiet_evaluate (env : Environment) (e : Expr) : (e.evaluate false env).Quiet :=
  keeps_evaluate Run.keeps_quiet e fun _ _ _ _ _ => rfl

/-- In environments that agree on the variables in an expression, on the functions that it calls and
on the lookup, it has the same value or error, asks the host for the same indices and leaves the
same random numbers, whichever it has to draw. Other variables and functions may be bound, hidden or
replaced at will. -/
theorem evaluate_agreeing (e : Expr) :
    (∀ env env', AgreeOn e.freeVariables e.callees env env' →
      (e.evaluate debug env).Alike (e.evaluate debug env')) ∧
    ∀ env name, (name ∉ e.freeVariables → ∀ value,
        (e.evaluate debug { env with vars := env.vars.set name value }).Alike
          (e.evaluate debug env)) ∧
      (name ∉ e.callees → ∀ entry,
        (e.evaluate debug { env with functions := env.functions.set name entry }).Alike
          (e.evaluate debug env)) :=
  ⟨fun _ _ agree => evaluate_alike debug debug e agree, fun _ _ =>
    ⟨fun other value => evaluate_alike debug debug e (Environment.agreeOn_set_var other value),
      fun other entry =>
        evaluate_alike debug debug e (Environment.agreeOn_set_function other entry)⟩⟩

/-- A call of `max` where `x` is a whole number and `min` is hidden, and where `x` is a double and
`z` is bound. A number is drawn that is different from call to call, and the values are the same;
`y` is bound in neither, and the errors are the same. -/
theorem evaluate_agreeing_max :
    let drawing : Expr := .call "max" [.external (.var "x"), .call "rand" [], .call "rand" []]
    let unbound : Expr := .call "max" [.external (.var "x"), .var "y"]
    let lookup : Lookup := fun i => .ok (.real (i / 8.0))
    let env : Environment :=
      { vars := [("x", .whole 2)], functions := [("min", none)], lookup? := some lookup }
    let env' : Environment :=
      { vars := [("z", .real 7.0), ("x", .real 2.0)], lookup? := some lookup }
    let draws : Draws := fun place => if place = 0 then 0#53 else 0x10000000000000#53
    (drawing.evaluate false env).Alike (drawing.evaluate false env') ∧
      (drawing.evaluate false env draws).outcome = .ok 0.5 ∧
      (drawing.evaluate false env' draws).outcome = .ok 0.5 ∧
      (unbound.evaluate false env).Alike (unbound.evaluate false env') ∧
      (unbound.evaluate false env' draws).outcome = .error (.error (.unbound .var "#y")) := by
  intro drawing unbound lookup env env' draws
  have same : Float.ofInt 2 = 2.0 := by decide +kernel
  have two : Quantity.toFloat (.whole 2) = .ok 2.0 := by
    rw [Quantity.toFloat_whole (by decide +kernel), same]
  have agree : AgreeOn ["x", "y"] ["max", "rand"] env env' := by
    refine ⟨List.forall_mem_cons.mpr ⟨congrArg some two, ?_⟩, ?_, rfl⟩
    · exact List.forall_mem_singleton.mpr rfl
    · exact List.forall_mem_cons.mpr ⟨rfl, List.forall_mem_singleton.mpr rfl⟩
  have value : (drawing.evaluate false env draws).outcome = .ok 0.5 := by decide +kernel
  have alike : (drawing.evaluate false env).Alike (drawing.evaluate false env') :=
    (evaluate_agreeing false drawing).1 env env' (agree.mono (by decide) (by decide))
  refine ⟨alike, value, (alike draws).outcome.symm.trans value, ?_, by decide +kernel⟩
  exact (evaluate_agreeing false unbound).1 env env' (agree.mono (by decide) (by decide))

end Expr

end Reckoner
