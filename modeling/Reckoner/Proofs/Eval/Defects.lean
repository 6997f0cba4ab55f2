import Mathlib.Control.Monad.Basic
import Reckoner.Proofs.Eval.Draws

/-!
# The first defect of an expression

An expression needs things of its environment, one after the other as evaluation comes to them: the
name of a call and the sign of an operation come before their operands, the number of arguments and
the lookup for a reference after them. When the host does its part, evaluation returns a value if
all needs are met. Otherwise it stops at the first that is not, with the error of that need, and has
asked the host for the indices of the references before it. The value of an index may be drawn, so a
need for a lookup records how many random numbers are drawn before its index.

`Run.Follows` says this of one run and one list of needs. It is closed under sequence, so it holds
of an expression because it holds of each step of its evaluation.
-/

namespace Reckoner

/-- The functions that a name may stand for: that of the host, or the built-in one if the host has
no entry of that name. An entry without a function stands for nothing. -/
inductive Environment.Provides (env : Environment) (name : String) : Function → Prop
  | host {f : Function} : env.functions.get? name = some (some f) → Provides env name f
  | builtin {b : Builtin} : env.functions.get? name = none → Builtin.find? name = some b →
      Provides env name b.function

/-- What an expression needs of its environment at one point of its evaluation. -/
inductive Need where
  /-- A value for a variable. -/
  | var (name : String)
  /-- A function under a name. -/
  | function (name : String)
  /-- A function that takes a number of arguments. -/
  | arguments (name : String) (count : Nat)
  /-- A lookup for an index, which is evaluated when so many random numbers have been drawn. -/
  | lookup (index : Expr) (drawn : Nat)
  /-- An operation with a sign. -/
  | operation (symbol : String)
  /-- A meaning for a plain value, which has none. -/
  | meaning (value : Scalar)

namespace Need

/-- The environment has what is needed. -/
def Met (env : Environment) : Need → Prop
  | var name => ∃ value, env.vars.get? name = some value
  | function name => ∃ f, env.Provides name f
  | arguments name count =>
    ∀ f s, env.Provides name f → f.signature? = some s → s.accepts count = true
  | lookup _ _ => ∃ lookup, env.lookup? = some lookup
  | operation symbol => ∃ o : Operation, o.symbol = symbol
  | meaning _ => False

/-- The error of a need that is not met. The one of a lookup names the value of the index. -/
inductive Reports (debug : Bool) (env : Environment) (draws : Draws) : Need → EvalError → Prop
  | var {name : String} : Reports debug env draws (.var name) (.unbound .var ("#" ++ name))
  | function {name : String} : Reports debug env draws (.function name) (.unbound .function name)
  | arguments {name : String} {count : Nat} {f : Function} {s : Signature} :
      env.Provides name f → f.signature? = some s →
      Reports debug env draws (.arguments name count) (.arity name s count)
  | lookup {index : Expr} {drawn : Nat} {i : Float} :
      (index.evaluate debug env (draws.drop drawn)).outcome = .ok i →
      Reports debug env draws (.lookup index drawn)
        (.unbound .external ("v[" ++ cutText indexDigits i ++ "]"))
  | operation {symbol : String} :
      Reports debug env draws (.operation symbol) (.unknownOperator symbol)
  | meaning {value : Scalar} : Reports debug env draws (.meaning value) (.unknownNode value)

/-- The indices that some needs ask a lookup for. -/
def indices (needs : List Need) : List (Expr × Nat) :=
  needs.filterMap fun
    | lookup index drawn => some (index, drawn)
    | _ => none

theorem indices_append (needs needs' : List Need) :
    indices (needs ++ needs') = indices needs ++ indices needs' :=
  List.filterMap_append

/-- The host was asked for the values of the indices, once for each and in their order. -/
def Asked (debug : Bool) (env : Environment) (draws : Draws) (needs : List Need)
    (asked : List Float) : Prop :=
  (indices needs).map (fun (index, drawn) =>
    (index.evaluate debug env (draws.drop drawn)).outcome) = asked.map Except.ok

variable {debug : Bool} {env : Environment} {draws : Draws} {needs needs' : List Need}
  {asked asked' : List Float}

theorem Asked.append (h : Asked debug env draws needs asked)
    (h' : Asked debug env draws needs' asked') :
    Asked debug env draws (needs ++ needs') (asked ++ asked') := by
  unfold Asked at h h' ⊢
  rw [indices_append, List.map_append, h, h', List.map_append]

end Need

mutual
/-- What an expression needs, in the order in which its evaluation comes to it, when so many random
numbers have been drawn before. -/
def Expr.needs (env : Environment) (drawn : Nat) : Expr → List Need
  | .number _ => []
  | .var name => [.var name]
  | .external index => index.needs env drawn ++ [.lookup index drawn]
  | .call name args =>
    .function name :: (Expr.allNeeds env drawn args ++ [.arguments name args.length])
  | .binary symbol a b _ =>
    .operation symbol :: (a.needs env drawn ++ b.needs env (drawn + a.draws env))
  | .foreign value => [.meaning value]

/-- What the listed expressions need. -/
def Expr.allNeeds (env : Environment) (drawn : Nat) : List Expr → List Need
  | [] => []
  | a :: args => a.needs env drawn ++ Expr.allNeeds env (drawn + a.draws env) args
end

/-! ## Hosts that do their part -/

/-- A function gives a number for as many arguments as it says that it takes, whatever it draws. -/
def Function.Obliging (f : Function) : Prop :=
  ∀ drawn xs, (∀ s, f.signature? = some s → s.accepts xs.length = true) →
    ∃ x, f.apply drawn xs = .ok x

/-- The values of the host are numbers that fit a double. -/
structure Environment.Obliging (env : Environment) : Prop where
  vars : ∀ name value, env.vars.get? name = some value → ∃ x, value.toFloat = .ok x
  functions : ∀ name f, env.functions.get? name = some (some f) → f.Obliging
  lookup : ∀ lookup, env.lookup? = some lookup →
    ∀ i, ∃ value x, lookup i = .ok value ∧ value.toFloat = .ok x

theorem Signature.accepts_exactly {count n : Nat} :
    (Signature.exactly n).accepts count = true ↔ count = n := by
  unfold accepts
  rw [Bool.and_eq_true, Bool.and_eq_true, Bool.or_eq_true, decide_eq_true_iff, decide_eq_true_iff,
    decide_eq_true_iff]
  unfold exactly
  simp only [Bool.false_eq_true, false_or, true_and, Nat.add_zero, and_comm]
  exact Nat.le_antisymm_iff.symm

theorem obliging_random : Function.random.Obliging := by
  intro drawn xs fits
  have none := Signature.accepts_exactly.mp (fits (.exactly 0) rfl)
  rw [List.eq_nil_of_length_eq_zero none]
  exact ⟨_, rfl⟩

theorem obliging_unary (f : Float → Float) : (Function.unary f).Obliging := by
  intro drawn xs fits
  have one := Signature.accepts_exactly.mp (fits (.exactly 1) rfl)
  obtain ⟨x, rfl⟩ := List.length_eq_one_iff.mp one
  exact ⟨f x, rfl⟩

theorem obliging_variadic (f : List Float → Float) : (Function.variadic f).Obliging :=
  fun _ xs _ => ⟨f xs, rfl⟩

/-- Every built-in function does its part. -/
theorem Builtin.obliging {b : Builtin} (h : b ∈ Builtin.all) : b.function.Obliging := by
  revert b
  simp only [Builtin.all, List.forall_mem_cons]
  refine ⟨?_, ?_, ?_, ?_, ?_, ?_, ?_, ?_, ?_, ?_, ?_, ?_, ?_, ?_, ?_, ?_, ?_, ?_, ?_, ?_, ?_, ?_,
    ?_, nofun⟩
  all_goals first
    | exact obliging_unary _
    | exact obliging_variadic _
    | exact obliging_random

variable {env : Environment} {name : String} {f : Function}

theorem Environment.resolve?_eq_some_iff : env.resolve? name = some f ↔ env.Provides name f := by
  unfold Environment.resolve?
  constructor
  · intro h
    split at h
    · next entry own =>
      subst h
      exact .host own
    · next none =>
      obtain ⟨b, found, rfl⟩ := Option.map_eq_some_iff.mp h
      exact .builtin none found
  · rintro (own | ⟨none, found⟩)
    · rw [own]
    · rw [none, found]
      rfl

theorem Environment.Obliging.provides (h : env.Obliging) (hf : env.Provides name f) :
    f.Obliging := by
  cases hf with
  | host own => exact h.functions name f own
  | builtin _ found => exact Builtin.obliging (List.mem_of_find?_eq_some found)

theorem Operation.symbol_of_ofSymbol? {symbol : String} {o : Operation}
    (h : Operation.ofSymbol? symbol = some o) : o.symbol = symbol := by
  simpa using List.find?_some h

theorem Operation.ofSymbol?_eq_none_iff {symbol : String} :
    Operation.ofSymbol? symbol = none ↔ ¬ ∃ o : Operation, o.symbol = symbol := by
  unfold Operation.ofSymbol?
  rw [List.find?_eq_none]
  constructor
  · rintro h ⟨o, rfl⟩
    exact h o (by cases o <;> decide) (by simp)
  · rintro h o - same
    exact h ⟨o, by simpa using same⟩

/-! ## Runs that follow a list of needs -/

namespace Run

variable {α β : Type} {debug : Bool} {draws : Draws}

/-- A run returns when all needs are met, and stops at the first that is not. Here the run starts
when so many of the random numbers have been drawn. -/
inductive Follows (debug : Bool) (env : Environment) (draws : Draws) (drawn : Nat)
    (needs : List Need) (r : Run α) : Prop
  | returns {v : α} : (∀ need ∈ needs, need.Met env) →
      Need.Asked debug env draws needs (r (draws.drop drawn)).asked →
      (r (draws.drop drawn)).outcome = .ok v → Follows debug env draws drawn needs r
  | stops {before after : List Need} {need : Need} {e : EvalError} :
      needs = before ++ need :: after → (∀ earlier ∈ before, earlier.Met env) → ¬ need.Met env →
      need.Reports debug env draws e →
      Need.Asked debug env draws before (r (draws.drop drawn)).asked →
      (r (draws.drop drawn)).outcome = .error (.error e) → Follows debug env draws drawn needs r

variable {m n : Nat} {needs needs' : List Need} {need : Need} {r : Run α} {g : α → Run β}

theorem Follows.bind (h : r.Follows debug env draws m needs) (takes : r.Takes n)
    (next : ∀ v, (r (draws.drop m)).outcome = .ok v →
      (g v).Follows debug env draws (m + n) needs') :
    (r >>= g).Follows debug env draws m (needs ++ needs') := by
  cases h with
  | @returns v met own returned =>
    have left := takes (draws.drop m) v returned
    rw [Draws.drop_drop] at left
    have whole := bind_of_ok (f := g) returned
    rw [left] at whole
    cases next v returned with
    | @returns w met' own' returned' =>
      refine .returns (v := w) (List.forall_mem_append.mpr ⟨met, met'⟩) ?_ ?_
      · rw [whole]
        exact own.append own'
      · rw [whole]
        exact returned'
    | @stops before after need e split met' unmet reports own' stopped =>
      subst split
      refine .stops (List.append_assoc ..).symm (List.forall_mem_append.mpr ⟨met, met'⟩) unmet
        reports ?_ ?_
      · rw [whole]
        exact own.append own'
      · rw [whole]
        exact stopped
  | @stops before after need e split met unmet reports own stopped =>
    subst split
    have whole := bind_of_error (f := g) stopped
    refine .stops (List.append_assoc ..) met unmet reports ?_ ?_
    · rw [whole]
      exact own
    · rw [whole]

theorem follows_nil {v : α} (asked : (r (draws.drop m)).asked = [])
    (returned : (r (draws.drop m)).outcome = .ok v) : r.Follows debug env draws m [] :=
  .returns nofun (congrArg (List.map Except.ok) asked).symm returned

theorem Follows.cons (plain : Need.indices [need] = []) (met : need.Met env)
    (h : r.Follows debug env draws m needs) : r.Follows debug env draws m (need :: needs) := by
  have front : Need.Asked debug env draws [need] [] := congrArg (List.map _) plain
  cases h with
  | returns met' own returned =>
    exact .returns (List.forall_mem_cons.mpr ⟨met, met'⟩) (front.append own) returned
  | stops split met' unmet reports own stopped =>
    exact .stops (congrArg (need :: ·) split) (List.forall_mem_cons.mpr ⟨met, met'⟩) unmet reports
      (front.append own) stopped

theorem follows_stop {e : EvalError} (unmet : ¬ need.Met env)
    (reports : need.Reports debug env draws e) :
    (stop e : Run α).Follows debug env draws m (need :: needs) :=
  .stops (List.nil_append _).symm nofun unmet reports rfl rfl

/-- A step without needs: a line of the trace, a draw, or a value that the host has given. -/
theorem Follows.after {v : α} (asked : (r (draws.drop m)).asked = [])
    (returned : (r (draws.drop m)).outcome = .ok v) (takes : r.Takes n)
    (h : (g v).Follows debug env draws (m + n) needs) :
    (r >>= g).Follows debug env draws m needs := by
  refine (follows_nil asked returned).bind takes fun w same => ?_
  rw [returned] at same
  cases same
  exact h

end Run

/-! ## Evaluation follows the needs of the expression -/

namespace Expr

open Run

variable {debug : Bool} {draws : Draws}

theorem length_of_evaluateAll : ∀ {draws : Draws} {args : List Expr}
    {values : List Float}, (evaluateAll debug env args draws).outcome = .ok values →
      values.length = args.length
  | _, [], _, h => by
    cases h
    rfl
  | _, a :: args, values, h => by
    rw [evaluateAll] at h
    obtain ⟨value, -, h⟩ := outcome_bind_eq_ok h
    obtain ⟨values', further, h⟩ := outcome_bind_eq_ok h
    cases h
    rw [List.length_cons, List.length_cons, length_of_evaluateAll further]

/-- Looking a reference up asks the host for its index, which has been evaluated. -/
theorem follows_reference (h : env.Obliging) {lookup : Lookup} (own : env.lookup? = some lookup)
    {index : Expr} {i : Float} {m n : Nat}
    (evaluated : (index.evaluate debug env (draws.drop m)).outcome = .ok i)
    (line : Float → String) :
    Follows debug env draws n [.lookup index m] (do
      let found ← Run.ask i (lookup i)
      let value ← Run.ofHost found.toFloat
      Run.note debug (line value)
      return value) := by
  obtain ⟨found, x, answered, fits⟩ := h.lookup lookup own i
  have met : ∀ need ∈ [Need.lookup index m], need.Met env :=
    List.forall_mem_singleton.mpr ⟨lookup, own⟩
  have first : (Run.ask i (lookup i)).Follows debug env draws n [.lookup index m] := by
    rw [answered]
    exact .returns met (congrArg (fun outcome => [outcome]) evaluated) rfl
  rw [← List.append_nil [Need.lookup index m]]
  refine first.bind (takes_ask _ _) fun found' same => ?_
  rw [answered] at same
  cases same
  rw [fits]
  exact .after rfl rfl (takes_ofHost _) (.after rfl rfl (takes_note _ _) (follows_nil rfl rfl))

/-- A call is checked against the signature of its function, which then gives a number. -/
theorem follows_call (h : env.Obliging) {f : Function} (own : env.Provides name f)
    (values : List Float) (n : Nat) :
    (f.call debug name values).Follows debug env draws n [.arguments name values.length] := by
  unfold Function.call
  -- the need speaks of any function of that name, and there is only this one
  have unique : ∀ f', env.Provides name f' → f' = f := fun f' given => Option.some.inj
    ((Environment.resolve?_eq_some_iff.mpr given).symm.trans
      (Environment.resolve?_eq_some_iff.mpr own))
  by_cases fits : ∀ s, f.signature? = some s → s.accepts values.length = true
  · have checked : f.check name values.length = .ok () := by
      unfold Function.check
      split
      · next s shown => rw [if_pos (fits s shown)]
      · rfl
    have met : ∀ f' s, env.Provides name f' → f'.signature? = some s →
        s.accepts values.length = true := by
      intro f' s given shown
      rw [unique f' given] at shown
      exact fits s shown
    rw [checked]
    refine .cons rfl met (.after rfl rfl (takes_ofCheck _) ?_)
    refine .after rfl rfl (takes_draw f.draws) ?_
    obtain ⟨x, applied⟩ := h.provides own
      (fun place => (draws.drop (n + 0)).number place) values fits
    rw [applied]
    exact .after rfl rfl (takes_ofHost _) (.after rfl rfl (takes_note _ _) (follows_nil rfl rfl))
  · obtain ⟨s, misfit⟩ := not_forall.mp fits
    obtain ⟨shown, refused⟩ := Classical.not_imp.mp misfit
    have checked : f.check name values.length = .error (.arity name s values.length) := by
      unfold Function.check
      rw [shown]
      exact if_neg refused
    rw [checked]
    exact follows_stop (fun met => refused (met f s own shown)) (.arguments own shown)

mutual
/-- An evaluation meets the needs of the expression in their order, or stops at the first that is
not met. -/
theorem follows_evaluate (h : env.Obliging) : ∀ (e : Expr) (n : Nat),
    (e.evaluate debug env).Follows debug env draws n (e.needs env n)
  | number x, n => by
    rw [evaluate]
    exact .after rfl rfl (takes_note _ _) (follows_nil rfl rfl)
  | var name, n => by
    rw [evaluate]
    refine .after rfl rfl (takes_note _ _) ?_
    cases own : env.vars.get? name with
    | none =>
      refine follows_stop ?_ .var
      rintro ⟨value, bound⟩
      rw [own] at bound
      cases bound
    | some value =>
      obtain ⟨x, fits⟩ := h.vars name value own
      refine .cons rfl ⟨value, own⟩ (.after rfl rfl (takes_note _ _) ?_)
      rw [fits]
      exact follows_nil rfl rfl
  | external index, n => by
    rw [evaluate]
    refine .after rfl rfl (takes_note _ _) ?_
    refine (follows_evaluate h index n).bind (takes_evaluate index) fun i evaluated => ?_
    cases own : env.lookup? with
    | none =>
      refine follows_stop ?_ (.lookup evaluated)
      rintro ⟨lookup, given⟩
      rw [own] at given
      cases given
    | some lookup => exact follows_reference h own evaluated _
  | call name args, n => by
    rw [evaluate]
    refine .after rfl rfl (takes_note _ _) ?_
    cases own : env.resolve? name with
    | none =>
      refine follows_stop ?_ .function
      rintro ⟨f, given⟩
      rw [Environment.resolve?_eq_some_iff.mpr given] at own
      cases own
    | some f =>
      have given := Environment.resolve?_eq_some_iff.mp own
      refine .cons rfl ⟨f, given⟩ ?_
      refine (follows_evaluateAll h args n).bind (takes_evaluateAll args) fun values evaluated => ?_
      rw [← length_of_evaluateAll evaluated]
      exact follows_call h given values _
  | binary symbol a b _, n => by
    rw [evaluate]
    refine .after rfl rfl (takes_note _ _) ?_
    cases own : Operation.ofSymbol? symbol with
    | none => exact follows_stop (Operation.ofSymbol?_eq_none_iff.mp own) .operation
    | some o =>
      have known := Operation.symbol_of_ofSymbol? own
      refine .cons rfl ⟨o, known⟩ ?_
      refine (follows_evaluate h a n).bind (takes_evaluate a) fun x _ => ?_
      rw [← List.append_nil (b.needs _ _)]
      refine (follows_evaluate h b _).bind (takes_evaluate b) fun y _ => ?_
      exact .after rfl rfl (takes_note _ _) (follows_nil rfl rfl)
  | foreign value, n => by
    rw [evaluate]
    exact .after rfl rfl (takes_note _ _) (follows_stop id .meaning)

theorem follows_evaluateAll (h : env.Obliging) : ∀ (args : List Expr) (n : Nat),
    (evaluateAll debug env args).Follows debug env draws n (allNeeds env n args)
  | [], n => follows_nil rfl rfl
  | a :: args, n => by
    rw [evaluateAll]
    refine (follows_evaluate h a n).bind (takes_evaluate a) fun value _ => ?_
    rw [← List.append_nil (allNeeds _ _ args)]
    refine (follows_evaluateAll h args _).bind (takes_evaluateAll args) fun values _ => ?_
    exact follows_nil rfl rfl
end

/-- With a host that does its part an expression has a value exactly when all its needs are met, and
the host has been asked for the values of all its indices. Otherwise evaluation stops with the error
of the first need that is not met, and the host has been asked for the indices before it. The values
of indices are those that they have with the random numbers that are left when evaluation comes to
them. -/
theorem first_defect (h : env.Obliging) (draws : Draws) (e : Expr) :
    ((∃ x, (e.evaluate debug env draws).outcome = .ok x) ↔ ∀ need ∈ e.needs env 0, need.Met env) ∧
      (∀ x, (e.evaluate debug env draws).outcome = .ok x →
        Need.Asked debug env draws (e.needs env 0) (e.evaluate debug env draws).asked) ∧
      ∀ stop, (e.evaluate debug env draws).outcome = .error stop →
        ∃ before need after err, e.needs env 0 = before ++ need :: after ∧
          (∀ earlier ∈ before, earlier.Met env) ∧ ¬ need.Met env ∧
          need.Reports debug env draws err ∧ stop = .error err ∧
          Need.Asked debug env draws before (e.evaluate debug env draws).asked := by
  have follows : (e.evaluate debug env).Follows debug env draws 0 (e.needs env 0) :=
    follows_evaluate h e 0
  generalize e.evaluate debug env = r at follows ⊢
  cases follows with
  | @returns x met asked returned =>
    rw [Draws.drop_zero] at asked returned
    rw [returned]
    exact ⟨⟨fun _ => met, fun _ => ⟨x, rfl⟩⟩, fun _ _ => asked, nofun⟩
  | @stops before after need err split met unmet reports asked stopped =>
    rw [Draws.drop_zero] at asked stopped
    rw [stopped]
    refine ⟨⟨nofun, fun all => absurd (all need ?_) unmet⟩, nofun, ?_⟩
    · rw [split]
      exact List.mem_append_cons_self
    · rintro stop ⟨⟩
      exact ⟨before, need, after, err, split, met, unmet, reports, rfl, asked⟩

/-- The host hides `max`, which is needed after two references, the second of them to an index that
is drawn, and before it shows that `f` has one argument too many. -/
theorem first_defect_hidden :
    let env : Environment :=
      { vars := [("x", .whole 2)]
        functions := [("max", none), ("f", some (.unary fun x => x + 1.0))]
        lookup? := some fun i => .ok (.real (2.0 * i)) }
    let e : Expr := .binary "+" (.external (.binary "+" (.var "x") (.call "rand" []) false))
      (.call "f" [.external (.call "f" [.call "rand" []]), .call "max" [.number 1.0]]) false
    let draws : Draws := fun place => if place = 0 then 0#53 else 0x10000000000000#53
    env.Obliging ∧
      (e.evaluate false env draws).outcome = .error (.error (.unbound .function "max")) ∧
      ∃ before need after, e.needs env 0 = before ++ need :: after ∧
        (∀ earlier ∈ before, earlier.Met env) ∧ ¬ need.Met env ∧
        need.Reports false env draws (.unbound .function "max") ∧
        Need.Asked false env draws before [2.0, 1.5] := by
  intro env e draws
  have obliging : env.Obliging := by
    refine ⟨fun name value own => ?_, fun name f own => ?_, ?_⟩
    · cases List.mem_singleton.mp (Bindings.mem_of_get? own)
      exact ⟨Float.ofInt 2, Quantity.toFloat_whole (by decide +kernel)⟩
    · rcases List.mem_cons.mp (Bindings.mem_of_get? own) with hidden | given
      · cases hidden
      · cases List.mem_singleton.mp given
        exact obliging_unary _
    · rintro lookup ⟨⟩ i
      exact ⟨.real (2.0 * i), 2.0 * i, rfl, rfl⟩
  have stopped : (e.evaluate false env draws).outcome =
      .error (.error (.unbound .function "max")) := by
    decide +kernel
  have asked : (e.evaluate false env draws).asked = [2.0, 1.5] := by decide +kernel
  obtain ⟨before, need, after, err, split, met, unmet, reports, same, asked'⟩ :=
    (first_defect obliging draws e).2.2 _ stopped
  cases same
  rw [asked] at asked'
  exact ⟨obliging, stopped, before, need, after, split, met, unmet, reports, asked'⟩

end Expr

end Reckoner
