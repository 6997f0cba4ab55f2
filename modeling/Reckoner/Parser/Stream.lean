import Reckoner.Parser.Context

/-!
# Parsers of streams

The input is a list of elements, the context a count of the elements read. The rest after a run is
what remains of the list.
-/

namespace Reckoner.Parser

variable {τ ε : Type}

/-- The first element of a stream, if `accepts` admits it. -/
def element (accepts : τ → Bool) (error : ε) : Parser (List τ) Spot ε τ where
  start? := some fun _ => .ok (.count 0)
  parse := fun _ s k =>
    match s with
    | [] => .failure error s k
    | x :: rest =>
      if accepts x then
        match k with
        | .count n => .success x rest (.count (n + 1))
        | _ => .halted (.fault .noCount)
      else .failure error s k

end Reckoner.Parser
