import Reckoner.CommandLine.Program
import Reckoner.Text.Letter

/-!
# The command line

The program reads its arguments, then holds a session on its standard input, line by line, or
answers the expressions it was given or finds there. Its random numbers follow from a seed that is
new with every run.
-/

namespace Reckoner.CommandLine

/-- The random numbers that follow from a seed: equal steps from it, each with its bits mixed. -/
def drawsOf (seed : UInt64) : Draws := fun place =>
  let x := seed + (place + 1).toUInt64 * 0x9E3779B97F4A7C15
  let x := (x ^^^ (x >>> 30)) * 0xBF58476D1CE4E5B9
  let x := (x ^^^ (x >>> 27)) * 0x94D049BB133111EB
  BitVec.ofNat 53 ((x ^^^ (x >>> 31)) >>> 11).toNat

/-- Prints lines on the standard output and the standard error. -/
def report (p : Printed) : IO Unit := do
  (← IO.getStdout).putStr (unlines p.out)
  (← IO.getStderr).putStr (unlines p.err)

/-- Reads and answers lines until the session ends or its input does. -/
partial def converse (debug : Bool) (vars : Variables) (draws : Draws) : IO Unit := do
  let output ← IO.getStdout
  output.putStr promptText
  output.flush
  let line ← (← IO.getStdin).getLine
  if line.isEmpty then output.putStr (unlines goodbye)
  else
    let answer := Session.answer debug vars line draws
    output.putStr (unlines answer.lines)
    if answer.more then converse debug answer.vars answer.draws

/-- Holds a session. -/
def openSession (settings : Settings) (vars : Variables) (draws : Draws) : IO Unit := do
  (← IO.getStdout).putStr (unlines (greeting false settings.debug))
  converse settings.debug vars draws

/-- Reads the rest of the standard input. -/
partial def readInput (input : IO.FS.Stream) (text : String) : IO String := do
  let line ← input.getLine
  if line.isEmpty then return text else readInput input (text ++ line)

/-- Prints the answers to expressions and gives their status, and the random numbers that are
left. -/
def answerAll (settings : Settings) (vars : Variables) (draws : Draws) (sources : List String) :
    IO (UInt32 × Draws) := do
  let (p, status, draws) := Expressions.answer settings.showTree settings.debug vars draws sources
  report p
  return (status.toUInt32, draws)

end Reckoner.CommandLine

open Reckoner.CommandLine in
/-- Runs the program with the arguments of its command line. -/
def main (arguments : List String) : IO UInt32 := do
  let seed ← IO.rand 0 0xFFFFFFFFFFFFFFFF
  match plan arguments (drawsOf seed.toUInt64) with
  | .finished p status =>
    report p
    return status.toUInt32
  | .giveUp => return 1
  | .proceed before settings vars draws =>
    report before
    let input ← IO.getStdin
    if settings.expressions ≠ [] then
      let (status, draws) ← answerAll settings vars draws settings.expressions
      if settings.interactive then openSession settings vars draws
      return status
    else if settings.interactive || (← input.isTty) then
      openSession settings vars draws
      return 0
    else
      let (status, _) ← answerAll settings vars draws (inputSources (← readInput input ""))
      return status
