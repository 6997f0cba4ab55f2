import Reckoner.Text.Letter
import Reckoner.Text.Lines
import Reckoner.Text.Quoted

/-!
# Options on a command line

An argument is an option when it starts with a dash, unless it is a negative number, holds a space
or is a dash alone. A long option may be shortened as long as it stays the only one. A value may
follow its option directly, after an equals sign, or as the next argument; short options may be run
together, and after the first of them an equals sign is a character like any other. After `--` no
argument is an option.
-/

namespace Reckoner.CommandLine

/-- The options of the program. -/
inductive Flag where
  | help
  | interactive
  | parse
  | define
  | debug
  | version
deriving DecidableEq, Repr

namespace Flag

/-- The spellings of the options, in the order in which they are searched. -/
def spellings : List (String × Flag) := [
  ("-h", help), ("--help", help),
  ("-i", interactive), ("--interactive", interactive),
  ("--parse", parse),
  ("-D", define), ("--define", define),
  ("--debug", debug),
  ("--version", version)]

/-- The option with a spelling. -/
def ofSpelling? (word : String) : Option Flag :=
  (spellings.find? fun (spelling, _) => spelling = word).map Prod.snd

/-- The option takes a value. -/
def takesValue (flag : Flag) : Bool :=
  flag = define

/-- All spellings of an option, for messages. -/
def names (flag : Flag) : String :=
  String.intercalate "/" ((spellings.filter fun (_, other) => other = flag).map Prod.fst)

end Flag

/-- What an argument is. -/
inductive Argument where
  | positional
  /-- The argument `--`, after which there are no options. -/
  | separator
  /-- An option by its spelling, and what is attached to it in the same argument, directly or after
  an equals sign. -/
  | option (flag : Flag) (short : Bool) (attached? : Option (List Char))
  /-- Something like an option that the program does not have. -/
  | unknown
deriving DecidableEq, Repr

/-- A negative number: digits, or a point and digits with or without digits before it. A line break
may follow. -/
def isNegativeNumber (text : List Char) : Bool :=
  match text with
  | '-' :: rest =>
    let body := if rest.getLast? = some '\n' then rest.dropLast else rest
    match cutAt '.' body with
    | (whole, none) => !whole.isEmpty && whole.all isDecimalDigit
    | (whole, some fraction) =>
      whole.all isDecimalDigit && !fraction.isEmpty && fraction.all isDecimalDigit
  | _ => false

/-- The options that an abbreviation may stand for. -/
def candidates (text : List Char) : List (String × Argument) :=
  let (word, value?) := cutAt '=' text
  match text with
  | '-' :: '-' :: _ =>
    (Flag.spellings.filter fun (spelling, _) => word.isPrefixOf spelling.toList).map
      fun (spelling, flag) => (spelling, .option flag false value?)
  | first :: second :: rest =>
    (Flag.spellings.filter fun (spelling, _) => spelling.toList = [first, second]).map
      fun (spelling, flag) => (spelling, .option flag true (some rest))
  | _ => []

/-- An option spelled in full, perhaps with a value after an equals sign. -/
def spelledOut? (text : List Char) : Option Argument :=
  let short := text[1]? ≠ some '-'
  match Flag.ofSpelling? (String.ofList text) with
  | some flag => some (.option flag short none)
  | none =>
    match cutAt '=' text with
    | (word, some value) =>
      (Flag.ofSpelling? (String.ofList word)).map fun flag => .option flag short (some value)
    | (_, none) => none

/-- What an argument is, or the message about an abbreviation that could be several options. -/
def classify (argument : String) : Except String Argument :=
  let text := argument.toList
  if argument = "--" then .ok .separator
  else if text.head? ≠ some '-' ∨ text.length = 1 then .ok .positional
  else match spelledOut? text with
    | some option => .ok option
    | none =>
      match candidates text with
      | [(_, option)] => .ok option
      | [] =>
        if isNegativeNumber text ∨ text.contains ' ' then .ok .positional else .ok .unknown
      | several =>
        let matching := String.intercalate ", " (several.map Prod.fst)
        .error s!"ambiguous option: {argument} could match {matching}"

/-- What the arguments are, one by one. -/
def classifyAll : List String → Except String (List (String × Argument))
  | [] => .ok []
  | argument :: rest => do
    match ← classify argument with
    | .separator => return (argument, .separator) :: rest.map fun later => (later, .positional)
    | kind => return (argument, kind) :: (← classifyAll rest)

end Reckoner.CommandLine
