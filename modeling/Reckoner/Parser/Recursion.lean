import Reckoner.Parser.Basic

/-!
# Recursive rules

A rule that refers to itself is the limit of its unfoldings. With fuel `n` the rule may enter itself
`n` levels deep; an entry beyond that is out of fuel. A deferred parser is made when it is run, and
its starting context is that of the parser it stands for.
-/

namespace Reckoner.Parser

variable {ι κ ε α : Type}

/-- The parser that `provider` makes, asked for only when it is needed. It always offers a starting
context. -/
def defer [Inhabited κ] (provider : Unit → Parser ι κ ε α) : Parser ι κ ε α where
  start? := some fun _ => (provider ()).initial
  parse := fun n s k => (provider ()).parse n s k

/-- Runs of a rule that may enter itself at most `depth` levels deep. -/
def unfolded (start? : Option (Unit → Except Fault κ)) (body : Parser ι κ ε α → Parser ι κ ε α) :
    Nat → Nat → ι → κ → Reply ι κ ε α
  | 0, _, _, _ => .halted .outOfFuel
  | depth + 1, n, s, k => (body ⟨start?, fun m => unfolded start? body depth m⟩).parse n s k

/-- The rule that `body` describes in terms of itself. -/
def fix (start? : Option (Unit → Except Fault κ)) (body : Parser ι κ ε α → Parser ι κ ε α) :
    Parser ι κ ε α where
  start? := start?
  parse := fun n s k => unfolded start? body n n s k

end Reckoner.Parser
