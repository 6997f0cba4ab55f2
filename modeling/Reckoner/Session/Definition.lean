import Reckoner.Eval.Interpretation
import Reckoner.Text.Blank
import Reckoner.Text.Lines

/-!
# Definitions

A definition `name = source` binds a variable to the value of a source. The name may be preceded by
`#` signs. Definitions are evaluated in order, each with the variables bound before it and the
random numbers left by it.
-/

namespace Reckoner

variable [Alphabet]

/-- Values of variables. -/
abbrev Variables := Bindings Float

/-- The name on the left of a definition, without blanks around it and `#` signs before it. -/
def definedName (text : List Char) : List Char :=
  (trim text).dropWhile (· = '#')

/-- The name of a definition, and the source of its value if there is an equals sign. -/
def splitDefinition (text : String) : List Char × Option String :=
  let (left, right?) := cutAt '=' text.toList
  (definedName left, right?.map String.ofList)

/-- A name of letters, numerals and underscores. -/
def isDefinable (name : List Char) : Bool :=
  !name.isEmpty && name.all fun c => isAlphanumeric c || c = '_'

/-- Why definitions are refused. -/
inductive DefinitionError where
  /-- Something that is not a definition. -/
  | invalid (text : String)
  /-- A value that cannot be computed. -/
  | value (failure : Failure)

/-- What is wrong with something that is not a definition. -/
def invalidDefinition (text : String) : String :=
  s!"Invalid definition '{text}', expected NAME=VALUE"

/-- Adds a definition to the variables, and gives the random numbers that are left; also lists the
lines of the trace. -/
def define (debug : Bool) (vars : Variables) (text : String) (draws : Draws) :
    List String × Except DefinitionError (Variables × Draws) :=
  match splitDefinition text with
  | (name, some source) =>
    if isDefinable name then
      let answer := interpret debug (.ofVariables vars) source draws
      (answer.trace, match answer.outcome with
        | .ok value => .ok (vars.set (String.ofList name) value, answer.draws)
        | .error failure => .error (.value failure))
    else ([], .error (.invalid text))
  | (_, none) => ([], .error (.invalid text))

/-- Adds definitions one after the other, up to the first that is refused. -/
def defineAll (debug : Bool) (vars : Variables) (draws : Draws) :
    List String → List String × Except DefinitionError (Variables × Draws)
  | [] => ([], .ok (vars, draws))
  | text :: rest =>
    match define debug vars text draws with
    | (trace, .ok (vars, draws)) =>
      let (more, outcome) := defineAll debug vars draws rest
      (trace ++ more, outcome)
    | (trace, .error e) => (trace, .error e)

end Reckoner
