import Reckoner.Session.Definition

/-!
# Lists of expressions

The expressions of a command line or a file are answered one after the other: values and trees on
the standard output, failures on the standard error. A failure does not keep the later expressions
from being answered.
-/

namespace Reckoner

/-- What a program prints. -/
structure Printed where
  /-- The lines of the standard output. -/
  out : List String := []
  /-- The lines of the standard error. -/
  err : List String := []

instance : Append Printed where
  append a b := ⟨a.out ++ b.out, a.err ++ b.err⟩

namespace Expressions

variable [Alphabet]

/-- The failure of a source in words. Expressions have no host, so the last case does not arise. -/
def failureLine (source : String) : Failure → String
  | .malformed e => s!"Error in '{source}':\n{e.text}"
  | .evaluation e => s!"Evaluation error in '{source}': {e.message}"
  | .host _ => ""

/-- What is printed for a source, whether it was answered, and the random numbers that are left. -/
def answerOne (showTree debug : Bool) (vars : Variables) (source : String) (draws : Draws) :
    Printed × Bool × Draws :=
  if showTree then
    let (outcome, trace) := Expr.readTraced debug source
    match outcome with
    | .ok e => (⟨trace ++ e.source :: e.outline 0, []⟩, true, draws)
    | .error e => (⟨trace, [failureLine source (.malformed e)]⟩, false, draws)
  else
    let result := interpret debug (.ofVariables vars) source draws
    match result.outcome with
    | .ok value => (⟨result.trace ++ [valueText value], []⟩, true, result.draws)
    | .error failure => (⟨result.trace, [failureLine source failure]⟩, false, result.draws)

/-- What is printed for a list of sources, the exit status, which is 1 if a source failed, and the
random numbers that are left. -/
def answer (showTree debug : Bool) (vars : Variables) (draws : Draws) :
    List String → Printed × Nat × Draws
  | [] => ({}, 0, draws)
  | source :: rest =>
    let (first, answered, draws) := answerOne showTree debug vars source draws
    let (others, status, draws) := answer showTree debug vars draws rest
    (first ++ others, if answered then status else 1, draws)

end Expressions

end Reckoner
