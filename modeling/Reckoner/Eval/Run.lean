import Reckoner.Eval.Draws
import Reckoner.Eval.Error

/-!
# Runs of an evaluation

A run draws random numbers, asks the host for values and writes a trace. What becomes of it is its
outcome, the indices that the host was asked for and the lines of the trace, both in order and both
up to where the run stopped, and the random numbers that it left.
-/

namespace Reckoner

/-- What becomes of a run. -/
structure Course (α : Type) where
  /-- The indices that the host was asked for. -/
  asked : List Float
  /-- The lines of the trace. -/
  trace : List String
  outcome : Except Stop α
  /-- The random numbers that are left. -/
  draws : Draws

/-- A computation that may draw random numbers, ask the host for values, write a trace and stop. -/
def Run (α : Type) :=
  Draws → Course α

namespace Run

variable {α β : Type}

/-- The run that only has an outcome. -/
def of (outcome : Except Stop α) : Run α :=
  fun draws => ⟨[], [], outcome, draws⟩

/-- What becomes of a run that is followed by another one, unless it stops. -/
def follow (c : Course α) (f : α → Run β) : Course β :=
  match c.outcome with
  | .error stop => ⟨c.asked, c.trace, .error stop, c.draws⟩
  | .ok v =>
    let next := f v c.draws
    ⟨c.asked ++ next.asked, c.trace ++ next.trace, next.outcome, next.draws⟩

instance : Monad Run where
  pure v := of (.ok v)
  bind r f := fun draws => follow (r draws) f

/-- Stops with an error of the expression. -/
def stop (e : EvalError) : Run α := of (.error (.error e))

/-- Takes over what the host gives. -/
def ofHost : Except HostFault α → Run α
  | .ok v => of (.ok v)
  | .error f => of (.error (.host f))

/-- Takes over the outcome of a check. -/
def ofCheck : Except EvalError α → Run α
  | .ok v => of (.ok v)
  | .error e => stop e

/-- Draws random numbers. -/
def draw (count : Nat) : Run (Fin count → Float) :=
  fun draws => ⟨[], [], .ok fun place => draws.number place, draws.drop count⟩

/-- Asks the host for the value of an index. -/
def ask (index : Float) (answer : Except HostFault α) : Run α :=
  fun draws => { ofHost answer draws with asked := [index] }

/-- Writes a line of the trace, if there is one. -/
def note (debug : Bool) (line : String) : Run Unit :=
  fun draws => ⟨[], if debug then [line] else [], .ok (), draws⟩

end Run

end Reckoner
