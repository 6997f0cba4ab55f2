import Reckoner.Parser.Context
import Reckoner.Parser.Repetition
import Reckoner.Text.Alphabet
import Reckoner.Text.Index
import Reckoner.Text.Quoted

/-!
# Parsers of texts

The input is the whole text and is never cut; the position says where reading stands, so the rest
after a run is always the text itself. A primitive either looks at the character at its position or
takes one `step` from there; it answers a value and the position it reached, or the error of its own
position.
-/

namespace Reckoner

/-- What a parser of texts expected, what it found instead, and where. -/
structure TextError where
  expected : String
  actual : String
  position? : Option Position
deriving DecidableEq, Repr

namespace TextError

/-- What is found at the end of the text. -/
def endMark : String := "<eos>"

/-- The error in words; the end of the text is not quoted. -/
def describe (e : TextError) : String :=
  let actual := if e.actual = endMark then e.actual else quoted e.actual
  s!"expected {quoted e.expected}, got {actual}"

/-- The same error with another expectation. -/
def expecting (expected : String) (e : TextError) : TextError :=
  { e with expected := expected }

end TextError

/-- A parser of texts. -/
abbrev TextParser (α : Type) := Parser (List Char) Position TextError α

namespace TextParser

/-- The parser that takes one step. -/
def ofStep {α : Type} (step : List Char → Position → Except TextError (α × Position)) :
    TextParser α where
  start? := some textStart
  parse := fun _ text p =>
    match step text p with
    | .ok (v, p') => .success v text p'
    | .error e => .failure e text p

/-- A position counts back beyond the first character of the text. -/
def isBefore (text : List Char) (p : Position) : Bool :=
  p.index + text.length < 0

/-- The parser that looks at the character at its position, or at the end of the text. -/
def ofLook {α : Type} (look : Position → Option Char → Except TextError (α × Position)) :
    TextParser α where
  start? := some textStart
  parse := fun _ text p =>
    if isBefore text p then .halted (.fault .beforeText)
    else match look p (charAt? text p.index) with
      | .ok (v, p') => .success v text p'
      | .error e => .failure e text p

/-- The error at a position where a character, or the end of the text, was found. -/
def errorAt (expected : String) (p : Position) (found? : Option Char) : TextError :=
  ⟨expected, match found? with
    | some c => String.singleton c
    | none => TextError.endMark, some p⟩

/-- One character that `accepts` admits; `expected` names it in errors. -/
def satisfy (accepts : Char → Bool) (expected : String) : TextParser Char :=
  ofLook fun p found? =>
    match found? with
    | some c => if accepts c then .ok (c, p.after [c]) else .error (errorAt expected p found?)
    | none => .error (errorAt expected p found?)

/-- One given character. -/
def char (c : Char) : TextParser Char :=
  satisfy (· = c) (String.singleton c)

/-- A number that fits in 32 bits with a sign. -/
def fitsWord (n : Int) : Bool :=
  -0x80000000 ≤ n && n < 0x80000000

/-- A parser that halts wherever it looks. -/
def unfindable (cause : Fault) : TextParser Char where
  start? := some textStart
  parse := fun _ text p => .halted (.fault (if isBefore text p then .beforeText else cause))

/-- A code point in an error; one that is no character is shown by its number. -/
def codePointText (n : Nat) : String :=
  if n.isValidChar then String.singleton (Char.ofNat n) else String.ofList (codePointEscape n)

/-- The character with a given code point. A code point that is no character is never found; a
number that is no code point cannot even be shown in an error. -/
def codePoint (n : Int) : TextParser Char :=
  if !fitsWord n then unfindable .codePointTooLarge
  else if n < 0 ∨ 0x110000 ≤ n then unfindable .notCharacter
  else satisfy (fun c => (c.toNat : Int) = n) (codePointText n.toNat)

/-- The parser of the one character of a text. -/
def single? (text : String) : Except Fault (TextParser Char) :=
  match text.toList with
  | [c] => .ok (char c)
  | _ => .error (.notSingle text)

/-- A given piece of text. -/
def literal (pattern : String) : TextParser String :=
  ofStep fun text p =>
    if hasAt text pattern.toList p.index then .ok (pattern, p.after pattern.toList)
    else
      let found := between text p.index (p.index + pattern.toList.length)
      .error ⟨pattern, if found.isEmpty then TextError.endMark else String.ofList found, some p⟩

/-- One of the digits `0` to `9`. -/
def digit : TextParser Char :=
  satisfy Char.isDigit "0-9"

/-- One letter of any alphabet. -/
def letter [Alphabet] : TextParser Char :=
  satisfy isLetter "letter"

/-- One letter of any alphabet or one of the digits `0` to `9`. -/
def alphanumeric [Alphabet] : TextParser Char :=
  (letter.orElse digit).mapError (.expecting "letter or digit")

/-- The end of the text. -/
def endOfText : TextParser Unit :=
  ofLook fun p found? =>
    match found? with
    | some _ => .error (errorAt TextError.endMark p found?)
    | none => .ok ((), p)

/-- Any number of spaces. -/
def spaces : TextParser (List Char) :=
  (char ' ').many

/-- The position reached; reads nothing. -/
def position : TextParser Position :=
  ofStep fun _ p => .ok (p, p)

end TextParser

/-- Errors that tell how far into the text a parser got. -/
class Reaching (ε : Type) where
  /-- The index that the error was met at, `-1` if it has none. -/
  reach : ε → Int
  /-- The error says nothing at all. -/
  isNothing : ε → Bool := fun _ => false

instance : Reaching TextError where
  reach e :=
    match e.position? with
    | some p => p.index
    | none => -1

namespace Parser

variable {ι κ ε α : Type}

/-- The error to report after another one: the later one when it got further, or when the earlier
one says nothing. -/
def further [Reaching ε] (earlier later : ε) : ε :=
  if Reaching.isNothing earlier || Reaching.reach earlier < Reaching.reach later then later
  else earlier

/-- Tries the alternatives in turn; `worst` is the error to report so far. -/
def tryFarthest [Reaching ε] (n : Nat) (s : ι) (k : κ) (worst : ε) :
    List (Parser ι κ ε α) → Reply ι κ ε α
  | [] => .failure worst s k
  | p :: others =>
    match p.parse n s k with
    | .success v s' k' => .success v s' k'
    | .failure e _ _ => tryFarthest n s k (further worst e) others
    | .halted h => .halted h

/-- The first of the alternatives that succeeds on the given input and context. The error is the
one that got furthest into the text, the earlier alternative winning ties. -/
def farthestOf [Placed κ] [Reaching ε] (p : Parser ι κ ε α) (others : List (Parser ι κ ε α)) :
    Parser ι κ ε α where
  start? := some textStart
  parse := fun n s k =>
    match p.parse n s k with
    | .success v s' k' => .success v s' k'
    | .failure e _ _ => tryFarthest n s k e others
    | .halted h => .halted h

/-- A choice by reach from a list, which must not be empty. -/
def farthestOf? [Placed κ] [Reaching ε] :
    List (Parser ι κ ε α) → Except Fault (Parser ι κ ε α)
  | [] => .error (.noAlternatives "furthest_of")
  | p :: others => .ok (farthestOf p others)

end Parser

/-- A fault in words, for the faults that a caller can cause by a value. -/
def Fault.message? : Fault → Option String
  | .notCharacter => some "chr() arg not in range(0x110000)"
  | .notSingle text => some s!"char expects a single character, got {quoted text}"
  | .noAlternatives choice => some s!"{choice} requires at least one parser"
  | _ => none

end Reckoner
