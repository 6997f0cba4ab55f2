import Reckoner.Session.Command

/-!
# Answers of a session

A session keeps the values of its variables and draws random numbers. A line is answered by a text,
and may bind a variable or end the session.
-/

namespace Reckoner

/-- What a session answers to a line. -/
structure Answer where
  /-- The session goes on. -/
  more : Bool
  /-- The lines that are printed. -/
  lines : List String
  vars : Variables
  /-- The random numbers that are left. -/
  draws : Draws

namespace Session

/-- The help of a session. -/
def helpLines : List String := [
  "REPL Commands:",
  "  <expr>              - Evaluate an expression",
  "  :parse <expr>       - Show the parsed expression tree",
  "  :let <name> = <expr> - Bind the free variable #name",
  "  :vars               - Show bound variables",
  "  :help               - Show this help",
  "  exit                - Exit REPL",
  "",
  "Syntax:",
  "  1 + 2 * 3           - Operators + - * / ^ (^ binds tightest)",
  "  #x                  - Free variable",
  "  max(1, #x)          - Function call",
  "",
  "Functions: " ++ String.intercalate ", " Builtin.names]

/-- The lines that list variables. -/
def variableLines (vars : Variables) : List String :=
  if vars.isEmpty then ["  (no variables bound)"]
  else vars.map fun (name, value) => s!"  #{name} = {valueText value}"

/-- A failure in words. A session has no host, so the last case does not arise. -/
def failureLine : Failure → String
  | .malformed e => e.text
  | .evaluation e => "Evaluation error: " ++ e.message
  | .host _ => ""

/-- The line that is printed of a result. -/
def resultLine (write : Float → String) : Except Failure Float → String
  | .ok value => write value
  | .error failure => failureLine failure

/-- What is printed of an interpretation. -/
def shown (write : Float → String) (result : Interpretation) : List String :=
  result.trace ++ [resultLine write result.outcome]

variable [Alphabet]

/-- Carries out a command. -/
def perform (debug : Bool) (vars : Variables) (draws : Draws) : Command → Answer
  | .blank => ⟨true, [], vars, draws⟩
  | .leave => ⟨false, [], vars, draws⟩
  | .tree source =>
    let (outcome, trace) := Expr.readTraced debug source
    ⟨true, trace ++ match outcome with
      | .ok e => "Expression tree:" :: e.outline 0
      | .error e => [e.text], vars, draws⟩
  | .vars => ⟨true, variableLines vars, vars, draws⟩
  | .bind name source =>
    let result := interpret debug (.ofVariables vars) source draws
    ⟨true, shown (fun value => s!"Bound: #{name} = {valueText value}") result,
      match result.outcome with
      | .ok value => vars.set name value
      | .error _ => vars, result.draws⟩
  | .bindIncomplete => ⟨true, ["Usage: :let <name> = <expr>"], vars, draws⟩
  | .help => ⟨true, helpLines, vars, draws⟩
  | .unknown word => ⟨true, [s!"Unknown command: {word} (try :help)"], vars, draws⟩
  | .evaluate source =>
    let result := interpret debug (.ofVariables vars) source draws
    ⟨true, shown (fun value => "=> " ++ valueText value) result, vars, result.draws⟩

/-- Answers a line. -/
def answer (debug : Bool) (vars : Variables) (line : String) (draws : Draws) : Answer :=
  perform debug vars draws (.ofLine line)

/-- What can be completed: the names of functions and the commands. -/
def completions : List String :=
  Builtin.names ++ [":parse", ":vars", ":let", ":help", "exit"]

/-- The completions that start with a text. -/
def complete (text : String) : List String :=
  completions.filter fun word => text.toList.isPrefixOf word.toList

end Session

end Reckoner
