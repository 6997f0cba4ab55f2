import Reckoner.Eval.Interpretation

/-!
# Batches of sources

A batch is dealt out to workers in turn, like cards. Every worker interprets the sources in its hand
in order, and every reply goes back to the place of its source. A source that is malformed or does
not evaluate is answered by its failure; a fault of the host ends the batch, that of the earliest
source first.

The workers draw random numbers from one generator as they come to it. So which numbers there are
for a source is up to the schedule, and a batch is evaluated with numbers for each place.
-/

namespace Reckoner.Batch

variable [Alphabet] {α β : Type}

/-- The hand that worker `worker` out of `workers` is dealt: every item with its place. -/
def hand (workers worker : Nat) (items : List α) : List (Nat × α) :=
  (items.zipIdx.filter fun (_, place) => place % workers = worker).map fun (item, place) =>
    (place, item)

/-- What the workers answer, each with the place of its item, one worker after the other. -/
def replies (workers : Nat) (work : α → β) (items : List α) : List (Nat × β) :=
  (List.range workers).flatMap fun worker =>
    (hand workers worker items).map fun (place, item) => (place, work item)

/-- The answers in the order of their places. -/
def collect (count : Nat) (answers : List (Nat × β)) : List β :=
  (List.range count).filterMap fun place =>
    (answers.find? fun answer => answer.1 = place).map Prod.snd

/-- The answers of a pool of workers to a list of items. -/
def pooled (workers : Nat) (work : α → β) (items : List α) : List β :=
  collect items.length (replies (min workers items.length) work items)

/-- Why a batch has no answers. -/
inductive Refusal where
  /-- A number of workers below one. -/
  | workers (given : Int)
  /-- A fault of the host. -/
  | host (cause : HostFault)

/-- What a number of workers below one is told. -/
def workersMessage (given : Int) : String :=
  s!"workers must be at least 1, got {given}"

/-- What an interpretation answers, unless the host is at fault. -/
def answer? (i : Interpretation) : Except HostFault (Except Failure Float) :=
  match i.outcome with
  | .error (.host fault) => .error fault
  | outcome => .ok outcome

/-- Interprets a source with the random numbers for its place. -/
def answerAt (debug : Bool) (env : Environment) (draws : Nat → Draws) (item : String × Nat) :
    Interpretation :=
  interpret debug env item.1 (draws item.2)

/-- What became of a batch. -/
structure Result where
  /-- The indices that the host was asked for by each source. -/
  asked : List (List Float)
  /-- The lines of the trace. -/
  trace : List String
  /-- The answers, in the order of the sources. -/
  outcome : Except Refusal (List (Except Failure Float))

/-- Evaluates a batch. -/
def evaluate (workers : Int) (debug : Bool) (env : Environment) (sources : List String)
    (draws : Nat → Draws) : Result :=
  if workers < 1 then ⟨[], [], .error (.workers workers)⟩
  else
    let answers := pooled workers.toNat (answerAt debug env draws) sources.zipIdx
    ⟨answers.map Interpretation.asked, answers.flatMap Interpretation.trace,
      (answers.mapM answer?).mapError .host⟩

end Reckoner.Batch
