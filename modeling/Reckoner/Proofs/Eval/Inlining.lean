import Reckoner.Proofs.Eval.Draws

/-!
# Binding a value and writing out its expression

A variable may be bound to the value of an expression, or the expression may be written in place of
the variable. If the expression draws no random numbers, evaluation ends in the same value or error,
wherever the variable stands and however often, and leaves the same random numbers. Only the host
may be asked more often: once for each place of the variable.
-/

namespace Reckoner

namespace Expr

mutual
/-- An expression with another one in place of a variable. -/
def inline (name : String) (replacement : Expr) : Expr → Expr
  | number x => number x
  | var other => if other = name then replacement else var other
  | external index => external (inline name replacement index)
  | call f args => call f (inlineAll name replacement args)
  | binary symbol a b grouped =>
    binary symbol (inline name replacement a) (inline name replacement b) grouped
  | foreign value => foreign value

/-- The listed expressions with another one in place of a variable. -/
def inlineAll (name : String) (replacement : Expr) : List Expr → List Expr
  | [] => []
  | a :: args => inline name replacement a :: inlineAll name replacement args
end

end Expr

namespace Environment

/-- An environment in which a variable is bound, whether or not it was before. -/
def bind (env : Environment) (name : String) (value : Float) : Environment :=
  { env with vars := env.vars.set name (.real value) }

variable {env : Environment} {name : String} {value : Float}

theorem get?_bind_self : (env.bind name value).vars.get? name = some (.real value) :=
  Bindings.get?_set_self name _ env.vars

theorem get?_bind_of_ne {other : String} (different : other ≠ name) :
    (env.bind name value).vars.get? other = env.vars.get? other :=
  Bindings.get?_set_of_ne different _ env.vars

theorem resolve?_bind (f : String) : (env.bind name value).resolve? f = env.resolve? f :=
  rfl

theorem bind_ofVariables (vars : Bindings Float) (name : String) (value : Float) :
    (ofVariables vars).bind name value = ofVariables (vars.set name value) := by
  unfold bind ofVariables
  rw [Bindings.mapValues_set]

end Environment

namespace Expr

open Environment

variable {debug : Bool} {env : Environment} {name : String} {replacement : Expr} {value : Float}

/-- Parentheses have no part in a value. -/
theorem evaluate_group (e : Expr) : e.group.evaluate debug env = e.evaluate debug env := by
  cases e with
  | binary symbol a b grouped => rw [group, evaluate, evaluate]
  | number _ | var _ | external _ | call _ _ | foreign _ => rfl

mutual
/-- The expression that is written out has the value and draws nothing, like the variable. -/
theorem equivalent_inline (h : (replacement.evaluate debug env).Equivalent (.of (.ok value))) :
    ∀ e : Expr, ((inline name replacement e).evaluate debug env).Equivalent
      (e.evaluate debug (env.bind name value))
  | number _ | foreign _ => .refl _
  | var other => by
    rw [inline]
    split
    · next same =>
      rw [evaluate, same, get?_bind_self]
      exact h
    · next different =>
      rw [evaluate, evaluate, get?_bind_of_ne different]
      exact .refl _
  | external index => by
    rw [inline, evaluate, evaluate]
    exact (Run.Equivalent.refl _).bind fun _ => (equivalent_inline h index).bind fun i => .refl _
  | call f args => by
    rw [inline, evaluate, evaluate, resolve?_bind]
    refine (Run.Equivalent.refl _).bind fun _ => ?_
    cases env.resolve? f with
    | none => exact .refl _
    | some function => exact (equivalent_inlineAll h args).bind fun values => .refl _
  | binary symbol a b _ => by
    rw [inline, evaluate, evaluate]
    refine (Run.Equivalent.refl _).bind fun _ => ?_
    cases Operation.ofSymbol? symbol with
    | none => exact .refl _
    | some o =>
      exact (equivalent_inline h a).bind fun x => (equivalent_inline h b).bind fun y => .refl _

theorem equivalent_inlineAll (h : (replacement.evaluate debug env).Equivalent (.of (.ok value))) :
    ∀ args : List Expr, (evaluateAll debug env (inlineAll name replacement args)).Equivalent
      (evaluateAll debug (env.bind name value) args)
  | [] => .refl _
  | a :: args => by
    rw [inlineAll, evaluateAll, evaluateAll]
    refine (equivalent_inline h a).bind fun x => ?_
    exact (equivalent_inlineAll h args).bind fun values => .refl _
end

end Expr

end Reckoner
