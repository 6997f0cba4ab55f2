/-!
# Parsers

A `Parser` reads a value from an input while a context goes along, such as the place reached in a
text. It is a value that describes a strategy: a run is given its input and context and answers with
a new context, so parsers keep nothing between runs.

A run answers with a `Reply`. It succeeds with a value, fails with an error, or halts: it has used
up its fuel, or something outside the grammar is wrong (a `Fault`). Fuel bounds the repetitions and
the nested recursive rules of a run; combinators hand it on unchanged.

On failure a parser should answer with the input and context it was given. `bind`, `filter` and
`mapContext` see to that whatever their parts do; `map`, `mapError` and `orElse` pass on what the
failing part answered.
-/

namespace Reckoner

/-- What is wrong with a run that cannot go on, or with a parser that cannot be made. -/
inductive Fault where
  /-- A text is read in a context that has no place in it. -/
  | noPosition
  /-- A text is read at an index that counts back beyond its first character. -/
  | beforeText
  /-- A stream is read in a context that does not count. -/
  | noCount
  /-- A code point to be shown lies outside the range of characters. -/
  | notCharacter
  /-- A code point to be shown does not fit in a machine word. -/
  | codePointTooLarge
  /-- A text given in place of one character. -/
  | notSingle (text : String)
  /-- A choice, named here, without alternatives. -/
  | noAlternatives (choice : String)
deriving DecidableEq, Repr

/-- Why a run ends without an answer. -/
inductive Halt where
  | outOfFuel
  | fault (cause : Fault)
deriving DecidableEq, Repr

/-- The answer of a run. -/
inductive Reply (ι κ ε α : Type) where
  | success (value : α) (rest : ι) (context : κ)
  | failure (error : ε) (rest : ι) (context : κ)
  | halted (cause : Halt)
deriving Repr

/-- Applies a function to the value of a successful reply. -/
def Reply.map {ι κ ε α β : Type} (f : α → β) : Reply ι κ ε α → Reply ι κ ε β
  | .success v rest k => .success (f v) rest k
  | .failure e rest k => .failure e rest k
  | .halted h => .halted h

/-- A parser of inputs `ι` with contexts `κ`, errors `ε` and values `α`. -/
@[ext]
structure Parser (ι κ ε α : Type) where
  /-- The context that a run starts in when it is given none, or why there cannot be one. -/
  start? : Option (Unit → Except Fault κ)
  /-- A run with some fuel on an input in a context. -/
  parse : Nat → ι → κ → Reply ι κ ε α

namespace Parser

variable {ι κ ε φ α β : Type}

/-- The context of a run that is given none; a parser that offers no context starts in the default
one. -/
def initial [Inhabited κ] (p : Parser ι κ ε α) : Except Fault κ :=
  match p.start? with
  | some offer => offer ()
  | none => .ok default

/-- A run in the parser's own starting context. -/
def run [Inhabited κ] (p : Parser ι κ ε α) (fuel : Nat) (input : ι) : Reply ι κ ε α :=
  match p.initial with
  | .ok k => p.parse fuel input k
  | .error cause => .halted (.fault cause)

/-- Succeeds with a value and reads nothing. -/
def pure (v : α) : Parser ι κ ε α where
  start? := none
  parse := fun _ s k => .success v s k

/-- Fails with an error and reads nothing. -/
def fail (e : ε) : Parser ι κ ε α where
  start? := none
  parse := fun _ s k => .failure e s k

/-- A parser that cannot be made: every run halts with the fault. -/
def broken (cause : Fault) : Parser ι κ ε α where
  start? := some fun _ => .error cause
  parse := fun _ _ _ => .halted (.fault cause)

/-- Applies a function to the value. -/
def map (f : α → β) (p : Parser ι κ ε α) : Parser ι κ ε β where
  start? := p.start?
  parse := fun n s k => (p.parse n s k).map f

/-- Runs `p`, then the parser that `f` makes from its value. When either fails the input and
context are those given. -/
def bind (p : Parser ι κ ε α) (f : α → Parser ι κ ε β) : Parser ι κ ε β where
  start? := p.start?
  parse := fun n s k =>
    match p.parse n s k with
    | .success v s' k' =>
      match (f v).parse n s' k' with
      | .success w s'' k'' => .success w s'' k''
      | .failure e _ _ => .failure e s k
      | .halted h => .halted h
    | .failure e _ _ => .failure e s k
    | .halted h => .halted h

/-- Runs `q` on the given input and context when `p` fails there. -/
def orElse (p : Parser ι κ ε α) (q : Parser ι κ φ α) : Parser ι κ φ α where
  start? := p.start?.or q.start?
  parse := fun n s k =>
    match p.parse n s k with
    | .success v s' k' => .success v s' k'
    | .failure _ _ _ => q.parse n s k
    | .halted h => .halted h

/-- Applies a function to the error. -/
def mapError (f : ε → φ) (p : Parser ι κ ε α) : Parser ι κ φ α where
  start? := p.start?
  parse := fun n s k =>
    match p.parse n s k with
    | .success v s' k' => .success v s' k'
    | .failure e s' k' => .failure (f e) s' k'
    | .halted h => .halted h

/-- Turns a value that is not accepted into the failure `error` gives for it. -/
def filter (accepts : α → Bool) (error : α → ε) (p : Parser ι κ ε α) : Parser ι κ ε α where
  start? := p.start?
  parse := fun n s k =>
    match p.parse n s k with
    | .success v s' k' => if accepts v then .success v s' k' else .failure (error v) s k
    | .failure e _ _ => .failure e s k
    | .halted h => .halted h

/-- Applies a function to the context after a success. -/
def mapContext (f : κ → κ) (p : Parser ι κ ε α) : Parser ι κ ε α where
  start? := p.start?
  parse := fun n s k =>
    match p.parse n s k with
    | .success v s' k' => .success v s' (f k')
    | .failure e _ _ => .failure e s k
    | .halted h => .halted h

/-- Runs `q` after `p` and pairs the values. -/
def both (p : Parser ι κ ε α) (q : Parser ι κ ε β) : Parser ι κ ε (α × β) :=
  p.bind fun v => q.map fun w => (v, w)

/-- Runs `q` after `p` and keeps the value of `p`. -/
def seqLeft (p : Parser ι κ ε α) (q : Parser ι κ ε β) : Parser ι κ ε α :=
  p.bind fun v => q.map fun _ => v

/-- Runs `q` after `p` and keeps the value of `q`. -/
def seqRight (p : Parser ι κ ε α) (q : Parser ι κ ε β) : Parser ι κ ε β :=
  p.bind fun _ => q

/-- The parser that a function makes of `p`. -/
def transform (f : Parser ι κ ε α → Parser ι κ φ β) (p : Parser ι κ ε α) : Parser ι κ φ β :=
  f p

/-- Gives a default value when `p` fails. -/
def orDefault (v : α) (p : Parser ι κ ε α) : Parser ι κ ε α :=
  p.orElse (pure v)

end Parser

end Reckoner
