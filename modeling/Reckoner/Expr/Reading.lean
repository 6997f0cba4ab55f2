import Reckoner.Diagnosis.SyntaxError
import Reckoner.Expr.Grammar
import Reckoner.Expr.Source

/-!
# Reading a source

`Expr.read?` reads a whole source or says what is wrong with it. `Expr.readTraced` also gives the
lines that a trace shows of it: the source, and its outline or the failure.
-/

namespace Reckoner

variable [Alphabet]

namespace Grammar

/-- Reads a whole text. A failure comes with the position where reading stopped. With `enoughFuel` a
run does not halt. -/
def read (text : List Char) : Except (TextError × Position) Expr :=
  match source.run (enoughFuel text) text with
  | .success e _ _ => .ok e
  | .failure e _ p => .error (e, p)
  | .halted _ => .error (⟨operandExpected, TextError.endMark, none⟩, .start)

end Grammar

namespace Expr

/-- Reads a source. -/
def read? (source : String) : Except SyntaxError Expr :=
  match Grammar.read source.toList with
  | .ok e => .ok e
  | .error (e, p) => .error (.ofFailure e p source.toList)

/-- The lines that a trace shows of reading a source. -/
def readLines (source : String) : List String :=
  s!"Parsing: {quoted source}" ::
    match Grammar.read source.toList with
    | .ok e => e.outline 0
    | .error (e, _) => [s!"Parse failed: {e.describe}"]

/-- Reads a source, and lists the lines of a trace when `debug` asks for one. -/
def readTraced (debug : Bool) (source : String) : Except SyntaxError Expr × List String :=
  (read? source, if debug then readLines source else [])

end Expr

end Reckoner
