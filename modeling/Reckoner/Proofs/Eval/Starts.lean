import Reckoner.Proofs.Eval.Dependence

/-!
# Nodes on which evaluation starts

In the trace of an evaluation the lines `Evaluating: …` tell on which nodes evaluation started.
`Expr.started` says which nodes these are by the values of the expressions alone: evaluation goes
below a node if its name or sign stands for something, and on to the next operand behind one that
has a value, with the random numbers that this one left. So they are the first of the nodes in the
order in which they are written, and all of them when the expression has a value.
-/

namespace Reckoner

/-- What comes behind an operand that has a value, with the random numbers that it left. -/
def Course.onward {α : Type} (c : Course Float) (next : Draws → List α) : List α :=
  if c.outcome.isOk then next c.draws else []

namespace Expr

mutual
/-- The nodes of an expression, each before those below it, which go from left to right. -/
def nodes : Expr → List Expr
  | number x => [number x]
  | var name => [var name]
  | external index => external index :: index.nodes
  | call name args => call name args :: allNodes args
  | binary symbol a b grouped => binary symbol a b grouped :: (a.nodes ++ b.nodes)
  | foreign v => [foreign v]

/-- The nodes of the listed expressions. -/
def allNodes : List Expr → List Expr
  | [] => []
  | a :: args => a.nodes ++ allNodes args
end

mutual
/-- The nodes on which evaluation starts, in the order in which it does. -/
def started (env : Environment) : Expr → Draws → List Expr
  | number x, _ => [number x]
  | var name, _ => [var name]
  | external index, draws => external index :: index.started env draws
  | call name args, draws =>
    call name args :: if (env.resolve? name).isSome then allStarted env args draws else []
  | binary symbol a b grouped, draws =>
    binary symbol a b grouped ::
      if (Operation.ofSymbol? symbol).isSome then
        a.started env draws ++ (a.evaluate false env draws).onward (b.started env)
      else []
  | foreign v, _ => [foreign v]

/-- The nodes of the listed expressions on which evaluation starts. -/
def allStarted (env : Environment) : List Expr → Draws → List Expr
  | [], _ => []
  | a :: args, draws =>
    a.started env draws ++ (a.evaluate false env draws).onward (allStarted env args)
end

/-- The line of a trace that says that evaluation starts on a node. -/
def startLine (e : Expr) : String :=
  "Evaluating: " ++ e.kind

variable {env : Environment}

theorem onward_of_ok {α : Type} {c : Course Float} {value : Float} (h : c.outcome = .ok value)
    (next : Draws → List α) : c.onward next = next c.draws := by
  unfold Course.onward
  rw [h]
  exact if_pos rfl

theorem onward_of_error {α : Type} {c : Course Float} {stop : Stop} (h : c.outcome = .error stop)
    (next : Draws → List α) : c.onward next = [] := by
  unfold Course.onward
  rw [h]
  exact if_neg Bool.false_ne_true

mutual
/-- When an expression has a value, evaluation has started on all of its nodes. -/
theorem started_of_value : ∀ {e : Expr} {draws : Draws} {value : Float},
    (e.evaluate false env draws).outcome = .ok value → e.started env draws = e.nodes
  | .number _, _, _, _ | .var _, _, _, _ | .foreign _, _, _, _ => rfl
  | .external index, _, _, returned => by
    rw [evaluate] at returned
    obtain ⟨_, -, returned⟩ := Run.outcome_bind_eq_ok returned
    obtain ⟨i, inside, -⟩ := Run.outcome_bind_eq_ok returned
    exact congrArg (external index :: ·) (started_of_value inside)
  | .call name args, _, _, returned => by
    rw [evaluate] at returned
    obtain ⟨_, -, returned⟩ := Run.outcome_bind_eq_ok returned
    rw [started, nodes]
    cases found : env.resolve? name with
    | none =>
      rw [found] at returned
      cases returned
    | some function =>
      rw [found] at returned
      obtain ⟨values, inside, -⟩ := Run.outcome_bind_eq_ok returned
      rw [if_pos Option.isSome_some]
      exact congrArg (call name args :: ·) (allStarted_of_values inside)
  | .binary symbol a b grouped, draws, _, returned => by
    rw [evaluate] at returned
    obtain ⟨_, -, returned⟩ := Run.outcome_bind_eq_ok returned
    rw [started, nodes]
    cases found : Operation.ofSymbol? symbol with
    | none =>
      rw [found] at returned
      cases returned
    | some operation =>
      rw [found] at returned
      obtain ⟨x, left, returned⟩ := Run.outcome_bind_eq_ok returned
      obtain ⟨y, right, -⟩ := Run.outcome_bind_eq_ok returned
      change (a.evaluate false env draws).outcome = .ok x at left
      rw [if_pos Option.isSome_some, onward_of_ok left]
      exact congrArg (binary symbol a b grouped :: ·)
        (congrArg₂ (· ++ ·) (started_of_value left) (started_of_value right))

theorem allStarted_of_values : ∀ {args : List Expr} {draws : Draws} {values : List Float},
    (evaluateAll false env args draws).outcome = .ok values →
      allStarted env args draws = allNodes args
  | [], _, _, _ => rfl
  | a :: args, _, _, returned => by
    rw [evaluateAll] at returned
    obtain ⟨x, first, returned⟩ := Run.outcome_bind_eq_ok returned
    obtain ⟨xs, others, -⟩ := Run.outcome_bind_eq_ok returned
    rw [allStarted, allNodes, onward_of_ok first]
    exact congrArg₂ (· ++ ·) (started_of_value first) (allStarted_of_values others)
end

/-- Behind an operand evaluation goes on if the operand has a value. -/
theorem prefix_onward {more : Draws → List Expr} {all : List Expr} {draws : Draws} (a : Expr)
    (here : a.started env draws <+: a.nodes) (later : ∀ draws, more draws <+: all) :
    a.started env draws ++ (a.evaluate false env draws).onward more <+: a.nodes ++ all := by
  cases outcome : (a.evaluate false env draws).outcome with
  | error stop =>
    rw [onward_of_error outcome, List.append_nil]
    exact here.trans (List.prefix_append _ _)
  | ok value =>
    rw [onward_of_ok outcome, started_of_value outcome]
    exact (List.prefix_append_right_inj _).mpr (later _)

mutual
/-- Evaluation starts on the first of the nodes and leaves none of them out. -/
theorem prefix_started : ∀ (e : Expr) (draws : Draws), e.started env draws <+: e.nodes
  | .number _, _ | .var _, _ | .foreign _, _ => List.prefix_rfl
  | .external index, draws => by
    rw [started, nodes]
    exact List.cons_prefix_cons.mpr ⟨rfl, prefix_started index draws⟩
  | .call name args, draws => by
    rw [started, nodes]
    refine List.cons_prefix_cons.mpr ⟨rfl, ?_⟩
    split
    · exact prefix_allStarted args draws
    · exact List.nil_prefix
  | .binary symbol a b _, draws => by
    rw [started, nodes]
    refine List.cons_prefix_cons.mpr ⟨rfl, ?_⟩
    split
    · exact prefix_onward a (prefix_started a draws) (prefix_started b)
    · exact List.nil_prefix

theorem prefix_allStarted : ∀ (args : List Expr) (draws : Draws),
    allStarted env args draws <+: allNodes args
  | [], _ => List.prefix_rfl
  | a :: args, draws => prefix_onward a (prefix_started a draws) (prefix_allStarted args)
end

end Expr

/-! ## Lines with which evaluation starts -/

/-- The line says that evaluation starts on some node. -/
def isStart (line : String) : Bool :=
  "Evaluating:".toList.isPrefixOf line.toList

theorem isStart_startLine (e : Expr) : isStart e.startLine = true := by
  unfold isStart Expr.startLine
  rw [List.isPrefixOf_iff_prefix, String.toList_append]
  exact ⟨' ' :: e.kind.toList, rfl⟩

/-- The other lines of a trace are indented. -/
def Indented (line : String) : Prop :=
  line.toList.head? = some ' '

theorem Indented.append {front : String} (h : Indented front) (rest : String) :
    Indented (front ++ rest) := by
  unfold Indented at h ⊢
  rw [String.toList_append, List.head?_append, h]
  rfl

theorem isStart_of_indented {line : String} (indented : Indented line) : isStart line = false := by
  unfold Indented at indented
  cases whole : line.toList with
  | nil =>
    rw [whole] at indented
    cases indented
  | cons c rest =>
    rw [whole] at indented
    cases indented
    unfold isStart
    rw [whole]
    rfl

namespace Run

variable {α β : Type} {r : Run α} {f : α → Run β} {draws : Draws}

/-- The lines of a run with which evaluation starts on a node. -/
def starts (r : Run α) (draws : Draws) : List String :=
  (r draws).trace.filter isStart

/-- Evaluation starts on no node in the run. -/
def Silent (r : Run α) : Prop :=
  ∀ draws, r.starts draws = []

theorem starts_of_error {stop : Stop} (h : (r draws).outcome = .error stop) :
    (r >>= f).starts draws = r.starts draws := by
  unfold starts
  rw [bind_of_error h]

theorem starts_of_ok {v : α} (h : (r draws).outcome = .ok v) :
    (r >>= f).starts draws = r.starts draws ++ (f v).starts (r draws).draws := by
  unfold starts
  rw [bind_of_ok h, List.filter_append]

/-- What follows without such a line leaves them as they are. -/
theorem starts_bind_silent (h : ∀ v, (f v).Silent) (draws : Draws) :
    (r >>= f).starts draws = r.starts draws := by
  cases outcome : (r draws).outcome with
  | error stop => exact starts_of_error outcome
  | ok v => rw [starts_of_ok outcome, h v, List.append_nil]

theorem Silent.bind (h : r.Silent) (next : ∀ v, (f v).Silent) : (r >>= f).Silent :=
  fun draws => (starts_bind_silent next draws).trans (h draws)

theorem Quiet.silent (h : r.Quiet) : r.Silent :=
  fun draws => congrArg (List.filter isStart) (h draws)

theorem starts_note (e : Expr) (f : Unit → Run β) (draws : Draws) :
    (note true e.startLine >>= f).starts draws = e.startLine :: (f ()).starts draws := by
  have own : (note true e.startLine).starts draws = [e.startLine] :=
    List.filter_cons_of_pos (isStart_startLine e)
  rw [starts_of_ok (v := ()) rfl, own]
  rfl

theorem silent_note {line : String} (indented : Indented line) : (note true line).Silent := by
  intro draws
  refine List.filter_cons_of_neg ?_
  rw [isStart_of_indented indented]
  exact Bool.false_ne_true

end Run

namespace Expr

variable {env : Environment}

open Run

/-- Behind an operand that has a value come the lines of what follows. -/
theorem starts_onward {α : Type} {a : Expr} {f : Float → Run α} {more : Draws → List Expr}
    {draws : Draws}
    (here : (a.evaluate true env).starts draws = (a.started env draws).map startLine)
    (later : ∀ x draws, (f x).starts draws = (more draws).map startLine) :
    (a.evaluate true env >>= f).starts draws =
      (a.started env draws ++ (a.evaluate false env draws).onward more).map startLine := by
  have alike := evaluate_alike true false a (.refl _ _ env) draws
  rw [List.map_append, ← here]
  cases outcome : (a.evaluate true env draws).outcome with
  | error stop =>
    rw [starts_of_error outcome, onward_of_error (alike.outcome.symm.trans outcome)]
    exact (List.append_nil _).symm
  | ok value =>
    rw [starts_of_ok outcome, onward_of_ok (alike.outcome.symm.trans outcome), later, alike.draws]

theorem silent_call (function : Function) (name : String) (values : List Float) :
    (function.call true name values).Silent := by
  have quiet := Run.keeps_quiet
  have front : Indented "  " := rfl
  unfold Function.call
  refine (quiet.ofCheck _).silent.bind fun _ => ?_
  refine (quiet_draw function.draws).silent.bind fun drawn => ?_
  refine (quiet.ofHost _).silent.bind fun value => ?_
  refine (silent_note ?_).bind fun _ => (quiet.of _).silent
  exact ((((front.append name).append "(").append _).append ") = ").append (floatText value)

mutual
/-- The trace has one of these lines for each node on which evaluation starts, in order. -/
theorem starts_evaluate : ∀ (e : Expr) (draws : Draws),
    (e.evaluate true env).starts draws = (e.started env draws).map startLine
  | .number x, draws => by
    rw [evaluate, started]
    exact starts_note (.number x) _ draws
  | .var name, draws => by
    rw [evaluate, started]
    refine (starts_note (.var name) _ draws).trans (congrArg (_ :: ·) ?_)
    cases env.vars.get? name with
    | none => rfl
    | some value =>
      refine (silent_note ?_).bind (fun _ => (keeps_quiet.ofHost _).silent) draws
      have front : Indented "  #" := rfl
      exact ((front.append name).append " = ").append value.text
  | .external index, draws => by
    rw [evaluate, started]
    refine (starts_note (.external index) _ draws).trans (congrArg (_ :: ·) ?_)
    rw [← starts_evaluate index draws]
    refine starts_bind_silent (fun i => ?_) draws
    cases env.lookup? with
    | none => exact (keeps_quiet.of _).silent
    | some lookup =>
      -- what the host gives is not traced, and the line that shows it is indented
      refine (keeps_quiet.ask _ _).silent.bind fun found => ?_
      refine (keeps_quiet.ofHost _).silent.bind fun value => ?_
      refine (silent_note ?_).bind fun _ => (keeps_quiet.of _).silent
      have front : Indented "  " := rfl
      exact ((front.append _).append " = ").append (floatText value)
  | .call name args, draws => by
    rw [evaluate, started]
    refine (starts_note (.call name args) _ draws).trans (congrArg (_ :: ·) ?_)
    cases env.resolve? name with
    | none => rfl
    | some function =>
      rw [if_pos Option.isSome_some, ← starts_evaluateAll args draws]
      exact starts_bind_silent (fun values => silent_call function name values) draws
  | .binary symbol a b _, draws => by
    rw [evaluate, started]
    refine (starts_note (.binary symbol a b _) _ draws).trans (congrArg (_ :: ·) ?_)
    cases Operation.ofSymbol? symbol with
    | none => rfl
    | some operation =>
      rw [if_pos Option.isSome_some]
      refine starts_onward (starts_evaluate a draws) fun x draws => ?_
      rw [← starts_evaluate b draws]
      refine starts_bind_silent (fun y => (silent_note ?_).bind fun _ => (keeps_quiet.of _).silent)
        draws
      have front : Indented "  " := rfl
      have shown := (((front.append (floatText x)).append " ").append symbol).append " "
      exact ((shown.append (floatText y)).append " = ").append (floatText (operation.apply x y))
  | .foreign v, draws => by
    rw [evaluate, started]
    exact starts_note (.foreign v) _ draws

theorem starts_evaluateAll : ∀ (args : List Expr) (draws : Draws),
    (evaluateAll true env args).starts draws = (allStarted env args draws).map startLine
  | [], _ => rfl
  | a :: args, draws => by
    rw [evaluateAll, allStarted]
    refine starts_onward (starts_evaluate a draws) fun x draws => ?_
    rw [← starts_evaluateAll args draws]
    exact starts_bind_silent (fun _ => (keeps_quiet.of _).silent) draws
end

end Expr

end Reckoner
