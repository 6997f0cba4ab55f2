import Reckoner.Eval.Basic
import Reckoner.Expr.Reading

/-!
# Interpreting sources

A source is read and evaluated. The answer is its value, or the first thing that went wrong; a trace
shows how the source was read before how it was evaluated.
-/

namespace Reckoner

/-- Why a source has no value. -/
inductive Failure where
  | malformed (error : SyntaxError)
  | evaluation (cause : EvalError)
  | host (cause : HostFault)

/-- Why an evaluation that stopped has no value. -/
def Stop.toFailure : Stop → Failure
  | .error e => .evaluation e
  | .host f => .host f

/-- What became of a source. -/
structure Interpretation where
  /-- The indices that the host was asked for. -/
  asked : List Float
  /-- The lines of the trace. -/
  trace : List String
  outcome : Except Failure Float
  /-- The random numbers that are left. -/
  draws : Draws

/-- What became of an evaluation, as an interpretation. -/
def Course.toInterpretation (c : Course Float) : Interpretation :=
  ⟨c.asked, c.trace, c.outcome.mapError Stop.toFailure, c.draws⟩

/-- Reads a source and evaluates it. -/
def interpret [Alphabet] (debug : Bool) (env : Environment) (source : String) (draws : Draws) :
    Interpretation :=
  match Expr.readTraced debug source with
  | (.error e, shown) => ⟨[], shown, .error (.malformed e), draws⟩
  | (.ok e, shown) =>
    let answer := (e.evaluate debug env draws).toInterpretation
    { answer with trace := shown ++ answer.trace }

end Reckoner
