import Reckoner.Diagnosis.Excerpt
import Reckoner.Diagnosis.Suggestion

/-!
# Errors in a source

A `SyntaxError` says where a source is malformed, what was expected and what was found there, shows
the lines around the place and gives suggestions. Parts that are missing or empty are left out of
its text.
-/

namespace Reckoner

/-- Why and where a source is malformed. -/
structure SyntaxError where
  message : String
  location : Int
  line : Int
  column : Int
  expected : List String
  got? : Option String
  context? : Option String
  suggestions : List String
deriving DecidableEq, Repr

/-- What was found, for a reader. -/
def foundText (found : String) : String :=
  if found = TextError.endMark then "end of input" else s!"'{found}'"

/-- What was looked for, for a reader; a single character is quoted. -/
def expectedText (expected : String) : String :=
  if expected = TextError.endMark then "end of input"
  else if expected.length = 1 then s!"'{expected}'"
  else expected

namespace SyntaxError

/-- A part of the text of an error, left out when it is missing or empty. -/
def part (value? : Option String) (write : String → String) : String :=
  match value? with
  | none | some "" => ""
  | some value => write value

/-- The error in words. -/
def text (e : SyntaxError) : String :=
  s!"Parse error at line {e.line}, column {e.column}:\n  {e.message}\n" ++
  (if e.expected.isEmpty then ""
    else "  Expected: " ++ String.intercalate ", " e.expected ++ "\n") ++
  part e.got? (fun got => s!"  Got: {got}\n") ++
  part e.context? (fun context => s!"  Context:\n{context}\n") ++
  (if e.suggestions.isEmpty then ""
    else "  Suggestions:\n" ++ String.join (e.suggestions.map fun s => s!"    - {s}\n"))

/-- How many lines are shown on either side of an error. -/
def linesAround : Int := 2

/-- The error that a failure to read `source` amounts to. The failure is located at its own
position, or where reading stopped if it has none. -/
def ofFailure (e : TextError) (stopped : Position) (source : List Char) : SyntaxError :=
  let place := e.position?.getD stopped
  let got := foundText e.actual
  let expected := expectedText e.expected
  { message := s!"expected {expected}, got {got}"
    location := place.index
    line := place.row
    column := place.column
    expected := [expected]
    got? := some got
    context? := some (excerpt source place.row place.column linesAround)
    suggestions := (Suggestion.all e.expected e.actual source).map Suggestion.text }

end SyntaxError

end Reckoner
