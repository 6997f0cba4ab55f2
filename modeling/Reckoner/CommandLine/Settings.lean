import Reckoner.CommandLine.Option

/-!
# Settings from a command line

The first group of arguments that are not options holds the expressions; later groups are refused
together with unknown options, after all options have been taken. The help and the version are shown
as soon as they are met.
-/

namespace Reckoner.CommandLine

/-- What the user asks for. -/
structure Settings where
  expressions : List String := []
  interactive : Bool := false
  showTree : Bool := false
  /-- The definitions, up to one that is missing. -/
  definitions : List String := []
  /-- A definition was written as `--`, which ends the options and defines nothing. -/
  definitionMissing : Bool := false
  debug : Bool := false
deriving DecidableEq, Repr

/-- What a command line amounts to. -/
inductive Request where
  | settings (settings : Settings)
  | help
  | version
  | refused (message : String)
deriving DecidableEq, Repr

/-- Options written in one argument. -/
structure Cluster where
  /-- Options without a value. -/
  flags : List Flag := []
  /-- An option with a value comes last; its value may be the next argument. -/
  valued? : Option (Option String) := none
deriving DecidableEq, Repr

/-- A message about an option. -/
def Flag.complaint (flag : Flag) (message : String) : String :=
  s!"argument {flag.names}: {message}"

/-- The message about a value that an option does not take. -/
def ignoredValue (flag : Flag) (value : List Char) : String :=
  flag.complaint ("ignored explicit argument " ++ quoted (String.ofList value))

/-- Puts options without a value before a cluster. -/
def Cluster.after (flag : Flag) (c : Cluster) : Cluster :=
  { c with flags := flag :: c.flags }

/-- The options that are run together with the short option `flag`. Every character is one more
option, up to one that takes the rest as its value. -/
def unjoin (flag : Flag) : List Char → Except String Cluster
  | [] => .ok (if flag.takesValue then { valued? := some none } else { flags := [flag] })
  | c :: rest =>
    if flag.takesValue then .ok { valued? := some (some (String.ofList (c :: rest))) }
    else match Flag.ofSpelling? (String.ofList ['-', c]) with
      | some next => (unjoin next rest).map (.after flag)
      | none => .error (ignoredValue flag (c :: rest))

/-- The options written in one argument. -/
def Cluster.ofOption (flag : Flag) (short : Bool) : Option (List Char) → Except String Cluster
  | none => unjoin flag []
  | some attached =>
    if flag.takesValue then .ok { valued? := some (some (String.ofList attached)) }
    else if short ∧ attached ≠ [] then unjoin flag attached
    else .error (ignoredValue flag attached)

/-- The state of reading a command line. -/
structure Progress where
  settings : Settings := {}
  /-- The expressions have been read. -/
  taken : Bool := false
  /-- Arguments that are not options, since the last option. -/
  group : List String := []
  /-- Arguments that have no place. -/
  extras : List String := []

namespace Progress

/-- Ends a group of arguments that are not options. The first `--` in the group of expressions is
none of them. -/
def closeGroup (p : Progress) : Progress :=
  if p.group.isEmpty then p
  else if p.taken then { p with group := [], extras := p.extras ++ p.group }
  else
    { p with
      group := []
      taken := true
      settings := { p.settings with expressions := p.group.erase "--" } }

/-- Sets the options without a value in turn; the help and the version end the reading. -/
def setFlags (p : Progress) : List Flag → Except Request Progress
  | [] => .ok p
  | .help :: _ => .error .help
  | .version :: _ => .error .version
  | .interactive :: rest =>
    setFlags { p with settings := { p.settings with interactive := true } } rest
  | .parse :: rest => setFlags { p with settings := { p.settings with showTree := true } } rest
  | .debug :: rest => setFlags { p with settings := { p.settings with debug := true } } rest
  | .define :: rest => setFlags p rest

/-- Adds a definition, unless one before it is missing. -/
def addDefinition (p : Progress) (definition : String) : Progress :=
  if p.settings.definitionMissing then p
  else if definition = "--" then
    { p with settings := { p.settings with definitionMissing := true } }
  else
    { p with
      settings := { p.settings with definitions := p.settings.definitions ++ [definition] } }

/-- Adds an argument that has no place. -/
def addExtra (p : Progress) (extra : String) : Progress :=
  { p with extras := p.extras ++ [extra] }

/-- Takes the options written in one argument. -/
def take (p : Progress) (cluster : Cluster) : Except Request Progress := do
  let p ← p.closeGroup.setFlags cluster.flags
  match cluster.valued? with
  | some (some definition) => return p.addDefinition definition
  | _ => return p

/-- What the arguments read amount to. -/
def finish (p : Progress) : Request :=
  let p := p.closeGroup
  if p.extras.isEmpty then .settings p.settings
  else .refused ("unrecognized arguments: " ++ String.intercalate " " p.extras)

/-- Reads the remaining arguments. -/
def read (p : Progress) : List (String × Argument) → Request
  | [] => p.finish
  | (text, .positional) :: rest | (text, .separator) :: rest =>
    read { p with group := p.group ++ [text] } rest
  | (text, .unknown) :: rest => read (p.closeGroup.addExtra text) rest
  | (_, .option flag short attached?) :: rest =>
    match Cluster.ofOption flag short attached? with
    | .error message => .refused message
    | .ok cluster =>
      if cluster.valued? = some none then
        match rest with
        | (definition, .positional) :: rest =>
          match p.take cluster with
          | .error request => request
          | .ok p => read (p.addDefinition definition) rest
        | _ => .refused (Flag.define.complaint "expected one argument")
      else
        match p.take cluster with
        | .error request => request
        | .ok p => read p rest

end Progress

/-- What a command line amounts to. -/
def request (arguments : List String) : Request :=
  match classifyAll arguments with
  | .error message => .refused message
  | .ok classified => Progress.read {} classified

end Reckoner.CommandLine
