import Reckoner.Proofs.Eval.Batch
import Reckoner.Proofs.Eval.Defects
import Reckoner.Proofs.Eval.Starts
import Reckoner.Proofs.Grammar.RoundTrip
import Reckoner.Proofs.Number.Characters
import Reckoner.Proofs.Session.Commands
import Reckoner.Proofs.Text.Lines
import Reckoner.Text.Letter

/-!
# Traces

To ask for a trace changes nothing else: with the same random numbers, an expression, a source and a
batch have the same values or errors, the host is asked for the same indices in the same order, and
the same random numbers are left. The lines with which evaluation starts on a node can also be found
in the text of a trace, when no line breaks inside.
-/

namespace Reckoner

open Reckoner.Grammar

/-! ## Traces as texts -/

theorem oneLine_floatText (x : Float) : OneLine (floatText x) :=
  (numeric_floatText x).noBreak

theorem oneLine_intercalate {texts : List String} (h : ∀ text ∈ texts, OneLine text) :
    OneLine (String.intercalate ", " texts) := by
  cases texts with
  | nil => decide
  | cons text texts =>
    rw [List.forall_mem_cons] at h
    rw [OneLine, toList_intercalate_cons, List.mem_append, not_or]
    refine ⟨h.1, ?_⟩
    rw [List.mem_flatMap]
    rintro ⟨other, listed, mem⟩
    rcases List.mem_append.mp mem with between | inside
    · exact absurd between (by decide)
    · exact h.2 other listed inside

mutual
/-- The words of an expression that its trace takes over as they are: the names of variables and
functions, and of kinds of plain values. -/
def Expr.words : Expr → List String
  | .number _ => []
  | .var name => [name]
  | .external index => index.words
  | .call name args => name :: Expr.allWords args
  | .binary _ a b _ => a.words ++ b.words
  | .foreign v => [v.kind]

/-- The words of the listed expressions. -/
def Expr.allWords : List Expr → List String
  | [] => []
  | a :: args => a.words ++ Expr.allWords args
end

theorem Expr.oneLine_startLine (e : Expr) (h : ∀ word ∈ e.words, OneLine word) :
    OneLine e.startLine := by
  have front : OneLine "Evaluating: " := by decide
  have kinds : ∀ kind ∈ ["Number", "Variable", "ExternalRef", "Call", "Operator"],
      OneLine kind := by
    decide
  refine front.append ?_
  cases e with
  | number => exact kinds "Number" (by decide)
  | var => exact kinds "Variable" (by decide)
  | external => exact kinds "ExternalRef" (by decide)
  | call => exact kinds "Call" (by decide)
  | binary => exact kinds "Operator" (by decide)
  | foreign v => exact h v.kind List.mem_cons_self

/-- No line of the trace breaks, whatever the run draws. -/
def Run.Unbroken {α : Type} (r : Run α) : Prop :=
  ∀ draws, ∀ line ∈ (r draws).trace, OneLine line

namespace Run

variable {α β : Type} {r : Run α} {f : α → Run β}

theorem Unbroken.bind (h : r.Unbroken) (next : ∀ v, (f v).Unbroken) : (r >>= f).Unbroken := by
  intro draws
  cases outcome : (r draws).outcome with
  | error stop =>
    rw [bind_of_error outcome]
    exact h draws
  | ok v =>
    rw [bind_of_ok outcome]
    exact List.forall_mem_append.mpr ⟨h draws, next v _⟩

theorem Quiet.unbroken (h : r.Quiet) : r.Unbroken := by
  intro draws
  rw [h draws]
  exact nofun

theorem unbroken_note {line : String} (h : OneLine line) : (note true line).Unbroken :=
  fun _ => List.forall_mem_singleton.mpr h

end Run

namespace Expr

open Run

variable {env : Environment}

theorem unbroken_call (function : Function) {name : String} (own : OneLine name)
    (values : List Float) : (function.call true name values).Unbroken := by
  have front : OneLine "  " := by decide
  have opening : OneLine "(" := by decide
  have closing : OneLine ") = " := by decide
  have shown : OneLine (String.intercalate ", " (values.map floatText)) :=
    oneLine_intercalate (List.forall_mem_map.mpr fun x _ => oneLine_floatText x)
  have line := (((front.append own).append opening).append shown).append closing
  unfold Function.call
  refine (keeps_quiet.ofCheck _).unbroken.bind fun _ => ?_
  refine (quiet_draw function.draws).unbroken.bind fun drawn => ?_
  refine (keeps_quiet.ofHost _).unbroken.bind fun value => ?_
  refine (unbroken_note (line.append (oneLine_floatText value))).bind fun _ => ?_
  exact (keeps_quiet.of _).unbroken

mutual
theorem unbroken_evaluate : ∀ e : Expr, (∀ word ∈ e.words, OneLine word) →
    (e.evaluate true env).Unbroken
  | .number x, h => by
    rw [evaluate]
    exact (unbroken_note (oneLine_startLine (.number x) h)).bind fun _ =>
      (keeps_quiet.of _).unbroken
  | .var name, h => by
    rw [evaluate]
    refine (unbroken_note (oneLine_startLine (.var name) h)).bind fun _ => ?_
    cases env.vars.get? name with
    | none => exact (keeps_quiet.of _).unbroken
    | some value =>
      have front : OneLine "  #" := by decide
      have equals : OneLine " = " := by decide
      have named := front.append (h name List.mem_cons_self)
      have line := (named.append equals).append (Quantity.numeric_text value).noBreak
      exact (unbroken_note line).bind fun _ => (keeps_quiet.ofHost _).unbroken
  | .external index, h => by
    rw [evaluate]
    refine (unbroken_note (oneLine_startLine (.external index) h)).bind fun _ => ?_
    refine (unbroken_evaluate index h).bind fun i => ?_
    cases env.lookup? with
    | none => exact (keeps_quiet.of _).unbroken
    | some lookup =>
      refine (keeps_quiet.ask _ _).unbroken.bind fun found => ?_
      refine (keeps_quiet.ofHost _).unbroken.bind fun value => ?_
      have front : OneLine "  " := by decide
      have opening : OneLine "v[" := by decide
      have closing : OneLine "]" := by decide
      have equals : OneLine " = " := by decide
      have reference := (opening.append (numeric_cutText indexDigits i).noBreak).append closing
      have line := ((front.append reference).append equals).append (oneLine_floatText value)
      exact (unbroken_note line).bind fun _ => (keeps_quiet.of _).unbroken
  | .call name args, h => by
    obtain ⟨own, inside⟩ := List.forall_mem_cons.mp h
    rw [evaluate]
    refine (unbroken_note (oneLine_startLine (.call name args) h)).bind fun _ => ?_
    cases env.resolve? name with
    | none => exact (keeps_quiet.of _).unbroken
    | some function =>
      refine (unbroken_evaluateAll args inside).bind fun values => ?_
      exact unbroken_call function own values
  | .binary symbol a b grouped, h => by
    obtain ⟨left, right⟩ := List.forall_mem_append.mp h
    rw [evaluate]
    refine (unbroken_note (oneLine_startLine (.binary symbol a b grouped) h)).bind fun _ => ?_
    cases own : Operation.ofSymbol? symbol with
    | none => exact (keeps_quiet.of _).unbroken
    | some operation =>
      refine (unbroken_evaluate a left).bind fun x => (unbroken_evaluate b right).bind fun y => ?_
      obtain rfl := Operation.symbol_of_ofSymbol? own
      have front : OneLine "  " := by decide
      have blank : OneLine " " := by decide
      have equals : OneLine " = " := by decide
      have left := (front.append (oneLine_floatText x)).append blank
      have sign := (left.append (noBreak_symbol operation)).append blank
      have right := (sign.append (oneLine_floatText y)).append equals
      have line := right.append (oneLine_floatText (operation.apply x y))
      exact (unbroken_note line).bind fun _ => (keeps_quiet.of _).unbroken
  | .foreign v, h => by
    rw [evaluate]
    exact (unbroken_note (oneLine_startLine (.foreign v) h)).bind fun _ =>
      (keeps_quiet.of _).unbroken

theorem unbroken_evaluateAll : ∀ args : List Expr, (∀ word ∈ allWords args, OneLine word) →
    (evaluateAll true env args).Unbroken
  | [], _ => (keeps_quiet.of _).unbroken
  | a :: args, h => by
    obtain ⟨first, others⟩ := List.forall_mem_append.mp h
    rw [evaluateAll]
    refine (unbroken_evaluate a first).bind fun _ => ?_
    exact (unbroken_evaluateAll args others).bind fun _ => (keeps_quiet.of _).unbroken
end

section

variable [Alphabet]

mutual
/-- The words in what is read of a source are names of the grammar, which have no line feed. -/
theorem oneLine_of_printable : ∀ e : Expr, e.Printable → ∀ word ∈ e.words, OneLine word
  | .number _, _ => nofun
  | .var _, h => List.forall_mem_singleton.mpr (h.not_mem (isNameChar_reserved (by decide)))
  | .external index, h => oneLine_of_printable index h
  | .call name args, h => by
    have own : OneLine name := h.1.1.not_mem (isNameChar_reserved (by decide))
    exact List.forall_mem_cons.mpr ⟨own, oneLine_of_allPrintable args h.2⟩
  | .binary _ a b _, h =>
    List.forall_mem_append.mpr ⟨oneLine_of_printable a h.2.1, oneLine_of_printable b h.2.2⟩

theorem oneLine_of_allPrintable : ∀ args : List Expr, AllPrintable args →
    ∀ word ∈ allWords args, OneLine word
  | [], _ => nofun
  | a :: args, h =>
    List.forall_mem_append.mpr ⟨oneLine_of_printable a h.1, oneLine_of_allPrintable args h.2⟩
end

end

/-- In the text of the trace, too, these lines tell on which nodes evaluation started. -/
theorem startLines_text (e : Expr) (h : ∀ word ∈ e.words, OneLine word) (draws : Draws) :
    (streamLines (unlines (e.evaluate true env draws).trace).toList).filter
        (fun line => "Evaluating:".toList.isPrefixOf line) =
      (e.started env draws).map fun node => node.startLine.toList := by
  have lines : (e.evaluate true env draws).trace.filter isStart =
      (e.started env draws).map startLine := starts_evaluate e draws
  have texts := congrArg (List.map String.toList) lines
  rw [List.map_map] at texts
  rw [streamLines_unlines (unbroken_evaluate e h draws), List.filter_map]
  exact texts

end Expr

/-! ## Sources and batches -/

/-- Interpretations in which the host was asked for the same indices, and that have the same outcome
and left the same random numbers. -/
structure Interpretation.Alike (i i' : Interpretation) : Prop where
  asked : i.asked = i'.asked
  outcome : i.outcome = i'.outcome
  draws : i.draws = i'.draws

section Sources

variable [Alphabet] {env : Environment}

theorem interpret_alike (source : String) (draws : Draws) :
    (interpret true env source draws).Alike (interpret false env source draws) := by
  unfold interpret Expr.readTraced
  cases Expr.read? source with
  | error _ => exact ⟨rfl, rfl, rfl⟩
  | ok e =>
    have alike := Expr.evaluate_alike true false e (.refl _ _ env) draws
    exact ⟨alike.asked, congrArg (Except.mapError _) alike.outcome, alike.draws⟩

namespace Batch

theorem evaluate_alike (env : Environment) (workers : Int) (sources : List String)
    (draws : Nat → Draws) :
    (evaluate workers true env sources draws).asked =
        (evaluate workers false env sources draws).asked ∧
      (evaluate workers true env sources draws).outcome =
        (evaluate workers false env sources draws).outcome := by
  by_cases few : workers < 1
  · unfold evaluate
    rw [if_pos few, if_pos few]
    exact ⟨rfl, rfl⟩
  · have enough := Int.not_lt.mp few
    rw [evaluate_eq enough, evaluate_eq enough]
    unfold sequential inTurn
    rw [List.map_map, List.map_map, List.mapM_map, List.mapM_map]
    have asked (item : String × Nat) : (answerAt true env draws item).asked =
        (answerAt false env draws item).asked := (interpret_alike item.1 _).asked
    have outcome : answer? ∘ answerAt true env draws = answer? ∘ answerAt false env draws := by
      funext item
      unfold Function.comp answer? answerAt
      rw [(interpret_alike item.1 _).outcome]
    rw [outcome]
    exact ⟨List.map_congr_left fun item _ => asked item, rfl⟩

theorem trace_evaluate (workers : Int) (sources : List String) (draws : Nat → Draws) :
    (evaluate workers false env sources draws).trace = [] := by
  by_cases few : workers < 1
  · unfold evaluate
    rw [if_pos few]
  · rw [evaluate_eq (Int.not_lt.mp few)]
    unfold inTurn
    rw [List.flatMap_map, List.flatMap_eq_nil_iff]
    exact fun item _ => trace_interpret env item.1 (draws item.2)

end Batch

end Sources

/-- With and without a trace and with the same random numbers, an expression, a source and a batch
have the same outcome, the host is asked for the same indices in the same order, and the same random
numbers are left; without one, there is none. The trace of an evaluation has one line
`Evaluating: …` for each node on which evaluation starts, in the order in which it does; these are
the first of the nodes, and all when there is a value. If words have no line feeds, and those of
sources do not, the text of the trace has these lines as well. -/
theorem debug_adds_trace [Alphabet] (env : Environment) :
    (∀ e : Expr, (e.evaluate true env).Alike (e.evaluate false env) ∧ ∀ draws,
      (e.evaluate false env draws).trace = [] ∧
      (e.evaluate true env draws).trace.filter isStart =
        (e.started env draws).map Expr.startLine ∧
      e.started env draws <+: e.nodes ∧
      (∀ value, (e.evaluate true env draws).outcome = .ok value → e.started env draws = e.nodes) ∧
      ((∀ word ∈ e.words, OneLine word) →
        (streamLines (unlines (e.evaluate true env draws).trace).toList).filter
            (fun line => "Evaluating:".toList.isPrefixOf line) =
          (e.started env draws).map fun node => node.startLine.toList)) ∧
    (∀ source,
      (∀ draws, (interpret true env source draws).Alike (interpret false env source draws) ∧
        (interpret false env source draws).trace = []) ∧
      ∀ e, Expr.read? source = .ok e → ∀ word ∈ e.words, OneLine word) ∧
    ∀ (workers : Int) (sources : List String) (draws : Nat → Draws),
      (Batch.evaluate workers true env sources draws).asked =
        (Batch.evaluate workers false env sources draws).asked ∧
      (Batch.evaluate workers true env sources draws).outcome =
        (Batch.evaluate workers false env sources draws).outcome ∧
      (Batch.evaluate workers false env sources draws).trace = [] := by
  refine ⟨?trees, ?sources, ?batches⟩
  case trees =>
    intro e
    refine ⟨Expr.evaluate_alike true false e (.refl _ _ env), fun draws => ?_⟩
    refine ⟨Expr.quiet_evaluate env e draws, Expr.starts_evaluate e draws,
      Expr.prefix_started e draws, fun value returned => ?_,
      fun plain => Expr.startLines_text e plain draws⟩
    rw [Expr.outcome_evaluate true false] at returned
    exact Expr.started_of_value returned
  case sources =>
    intro source
    refine ⟨fun draws => ⟨interpret_alike source draws, trace_interpret env source draws⟩, ?_⟩
    exact fun e read => e.oneLine_of_printable (printable_source (source_of_read? read))
  case batches =>
    intro workers sources draws
    obtain ⟨asked, outcome⟩ := Batch.evaluate_alike env workers sources draws
    exact ⟨asked, outcome, Batch.trace_evaluate workers sources draws⟩

/-- Evaluation of a call stops at a variable that is not bound, and goes through all nodes of a sum
that has a value, a number that is drawn. -/
theorem debug_adds_trace_stopped :
    let env : Environment := { vars := [("x", .whole 2)] }
    let call : Expr := .call "max" [.binary "+" (.var "y") (.number 1.0) false, .var "x"]
    let sum : Expr := .binary "+" (.var "x") (.call "rand" []) false
    let draws : Draws := fun _ => 0x10000000000000#53
    (streamLines (unlines (call.evaluate true env draws).trace).toList).filter
        (fun line => "Evaluating:".toList.isPrefixOf line) =
      ["Evaluating: Call", "Evaluating: Operator", "Evaluating: Variable"].map String.toList ∧
    sum.started env draws = sum.nodes ∧
    (sum.evaluate false env draws).outcome = .ok 2.5 ∧
    ∀ word ∈ sum.words, OneLine word := by
  intro env call sum draws
  obtain ⟨trees, sources, -⟩ := debug_adds_trace env
  have plain : ∀ word ∈ call.words, OneLine word := by decide
  have started : call.started env draws =
      [call, .binary "+" (.var "y") (.number 1.0) false, .var "y"] := by decide +kernel
  have read : Expr.read? "#x + rand()" = .ok sum := ok_of_toOption (by decide +kernel)
  have returned : (sum.evaluate true env draws).outcome = .ok 2.5 :=
    ok_of_toOption (by decide +kernel)
  obtain ⟨-, called⟩ := trees call
  obtain ⟨alike, summed⟩ := trees sum
  obtain ⟨-, -, -, -, text⟩ := called draws
  obtain ⟨-, -, -, all, -⟩ := summed draws
  refine ⟨?_, all 2.5 returned, (alike draws).outcome.symm.trans returned,
    (sources "#x + rand()").2 sum read⟩
  rw [text plain, started]
  rfl

end Reckoner
