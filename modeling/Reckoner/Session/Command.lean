import Reckoner.Session.Definition

/-!
# Lines of a session

A line of a session is a command or an expression. Blanks around it do not count.
-/

namespace Reckoner

/-- What a line asks for. -/
inductive Command where
  /-- Nothing. -/
  | blank
  /-- To end the session. -/
  | leave
  /-- To show the tree of a source. -/
  | tree (source : String)
  /-- To list the variables. -/
  | vars
  /-- To bind a variable to the value of a source. -/
  | bind (name source : String)
  /-- To bind a variable, without a name or a source. -/
  | bindIncomplete
  /-- To show the help. -/
  | help
  /-- A command that there is not. -/
  | unknown (word : String)
  /-- To evaluate a source. -/
  | evaluate (source : String)
deriving DecidableEq, Repr

namespace Command

/-- What follows a word at the start of a text. -/
def after? (word : String) (text : List Char) : Option (List Char) :=
  if word.toList.isPrefixOf text then some (text.drop word.toList.length) else none

/-- The words that end a session. -/
def farewells : List String := ["exit", "exit.", ":quit"]

/-- The command to bind a variable by the text after its word. -/
def ofBinding (text : List Char) : Command :=
  match splitDefinition (String.ofList text) with
  | (name, some source) => if name.isEmpty then bindIncomplete else bind (String.ofList name) source
  | (_, none) => bindIncomplete

/-- What a line asks for. -/
def ofLine (line : String) : Command :=
  let code := trim line.toList
  if farewells.contains (String.ofList code) then leave
  else if code.isEmpty then blank
  else if let some source := after? ":parse " code then tree (String.ofList source)
  else if code = ":vars".toList then vars
  else if let some text := after? ":let " code then ofBinding text
  else if code = ":help".toList then help
  else if code.head? = some ':' then
    unknown (String.ofList (code.takeWhile fun c => !isBlank c))
  else evaluate (String.ofList code)

end Command

end Reckoner
