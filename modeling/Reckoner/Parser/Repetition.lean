import Reckoner.Parser.Basic

/-!
# Sequences, choices and repetitions

A repetition runs one parser from state to state until it fails and collects the values. The failure
that ends it is dropped, with whatever input and context it answered. A parser that succeeds without
moving on never stops repeating; such a run ends when its fuel does.
-/

namespace Reckoner.Parser

variable {ι κ ε α β : Type}

/-- The values of a run as long as `p` succeeds, for at most `turns` turns. -/
def repeated (p : Parser ι κ ε α) (fuel : Nat) : Nat → ι → κ → Reply ι κ ε (List α)
  | 0, _, _ => .halted .outOfFuel
  | turns + 1, s, k =>
    match p.parse fuel s k with
    | .success v s' k' => (p.repeated fuel turns s' k').map (v :: ·)
    | .failure _ _ _ => .success [] s k
    | .halted h => .halted h

/-- One or more repetitions. -/
def many1 (p : Parser ι κ ε α) : Parser ι κ ε (List α) where
  start? := p.start?
  parse := fun n s k =>
    match p.parse n s k with
    | .success v s' k' => (p.repeated n n s' k').map (v :: ·)
    | .failure e _ _ => .failure e s k
    | .halted h => .halted h

/-- Any number of repetitions; never fails. -/
def many (p : Parser ι κ ε α) : Parser ι κ ε (List α) :=
  p.many1.orElse (pure [])

/-- Any number of occurrences of `p` with `separator` between them. A separator that no `p` follows
is not read. -/
def sepBy (p : Parser ι κ ε α) (separator : Parser ι κ ε β) : Parser ι κ ε (List α) :=
  (p.bind fun first => (separator.seqRight p).many.map (first :: ·)).orElse (pure [])

/-- Runs the parsers one after the other and lists their values. -/
def sequence : List (Parser ι κ ε α) → Parser ι κ ε (List α)
  | [] => pure []
  | p :: ps =>
    ps.foldl (fun done q => done.bind fun vs => q.map fun v => vs ++ [v]) (p.map fun v => [v])

/-- The first of the alternatives that succeeds on the given input and context; the error is that of
the last one. -/
def firstOf (p : Parser ι κ ε α) (others : List (Parser ι κ ε α)) : Parser ι κ ε α :=
  others.foldl orElse p

/-- A choice from a list, which must not be empty. -/
def firstOf? : List (Parser ι κ ε α) → Except Fault (Parser ι κ ε α)
  | [] => .error (.noAlternatives "one_of")
  | p :: others => .ok (firstOf p others)

end Reckoner.Parser
