import Reckoner.CommandLine.Help
import Reckoner.CommandLine.Settings
import Reckoner.Session.Answer
import Reckoner.Session.Expressions

/-!
# The program

The program evaluates the expressions of its command line, holds a session, or evaluates the lines
of its input, one expression per line. It ends with status 0, with 1 when an expression failed, and
with 2 when the command line or a definition is refused; a session alone ends without a status. It
gives up at a definition that is missing.
-/

namespace Reckoner.CommandLine

variable [Alphabet]

/-- What the program does after reading its command line. -/
inductive Plan where
  /-- To end with a status, after printing. -/
  | finished (printed : Printed) (status : Nat)
  /-- To go on with settings, variables and the random numbers that are left, after printing. -/
  | proceed (printed : Printed) (settings : Settings) (vars : Variables) (draws : Draws)
  /-- To give up at a definition that is missing. -/
  | giveUp

/-- What is printed about a command line that is refused. -/
def refusal (message : String) : List String :=
  usageLines ++ [s!"{programName}: error: {message}"]

/-- Why the definitions of a command line are refused. A command line has no host, so the last case
does not arise. -/
def definitionMessage : DefinitionError → String
  | .invalid text => invalidDefinition text
  | .value (.malformed e) => e.text
  | .value (.evaluation e) => e.message
  | .value (.host _) => ""

/-- Reads a command line and its definitions. -/
def plan (arguments : List String) (draws : Draws) : Plan :=
  match request arguments with
  | .help => .finished ⟨helpLines, []⟩ 0
  | .version => .finished ⟨[versionText], []⟩ 0
  | .refused message => .finished ⟨[], refusal message⟩ 2
  | .settings settings =>
    match defineAll settings.debug [] draws settings.definitions with
    | (trace, .ok (vars, draws)) =>
      if settings.definitionMissing then .giveUp else .proceed ⟨trace, []⟩ settings vars draws
    | (trace, .error e) => .finished ⟨trace, ["Error: " ++ definitionMessage e]⟩ 2

/-- What a session is opened with. -/
def greeting (readline debug : Bool) : List String :=
  [s!"{versionText} - Interactive Mode", "Type 'exit' to quit, ':help' for commands"] ++
  (if readline then ["Readline enabled: Use ↑/↓ for history, Tab for completion"] else []) ++
  (if debug then ["Debug mode enabled"] else []) ++ [""]

/-- What a line is asked for with. -/
def promptText : String := "arith> "

/-- What is printed when the input of a session ends or is interrupted. -/
def goodbye : List String := ["", "Goodbye!"]

/-- What a session prints for its lines. -/
def conversation (debug : Bool) (vars : Variables) (draws : Draws) : List String → String
  | [] => promptText ++ unlines goodbye
  | line :: rest =>
    let answer := Session.answer debug vars line draws
    promptText ++ unlines answer.lines ++
      if answer.more then conversation debug answer.vars answer.draws rest else ""

/-- What the program finds around it. -/
structure Surroundings where
  /-- The standard input. -/
  input : String := ""
  /-- The input comes from a terminal. -/
  terminal : Bool := false
  /-- Lines can be edited and completed. -/
  readline : Bool := false
  /-- The random numbers. -/
  draws : Draws

/-- What the program leaves behind. -/
structure Ending where
  /-- The status, unless the program ends of its own accord. -/
  status? : Option Nat
  out : String
  err : String

/-- The session that the program holds. -/
def session (settings : Settings) (vars : Variables) (draws : Draws) (around : Surroundings) :
    String :=
  unlines (greeting around.readline settings.debug) ++
    conversation settings.debug vars draws
      ((streamLines around.input.toList).map String.ofList)

/-- The expressions in the input, one per line that is not blank. -/
def inputSources (input : String) : List String :=
  ((lines input.toList).filter fun line => !(trim line).isEmpty).map String.ofList

/-- Runs the program; no ending when it gives up. -/
def run? (arguments : List String) (around : Surroundings) : Option Ending :=
  match plan arguments around.draws with
  | .giveUp => none
  | .finished p status => some ⟨some status, unlines p.out, unlines p.err⟩
  | .proceed before settings vars draws =>
    let answered (sources : List String) :=
      Expressions.answer settings.showTree settings.debug vars draws sources
    if settings.expressions ≠ [] then
      let (p, status, draws) := answered settings.expressions
      let p := before ++ p
      some ⟨some status, unlines p.out ++
        (if settings.interactive then session settings vars draws around else ""), unlines p.err⟩
    else if settings.interactive || around.terminal then
      some ⟨none, unlines before.out ++ session settings vars draws around, unlines before.err⟩
    else
      let (p, status, _) := answered (inputSources around.input)
      let p := before ++ p
      some ⟨some status, unlines p.out, unlines p.err⟩

end Reckoner.CommandLine
