import Reckoner.Expr.Precedence
import Reckoner.Number.Numeral
import Reckoner.Parser.Recursion
import Reckoner.Parser.Text

/-!
# The grammar of expressions

    source     := ws expression ws
    expression := operand | operand ws operator ws expression
    operand    := '(' ws expression ws ')' | number | call | variable
    call       := name '(' ws [expression (ws ',' ws expression)*] ws ')'
    variable   := '#' name | 'v[' ws expression ws ']'
    number     := [sign] (digits ['.' digits] | '.' digits) [('e' | 'E') [sign] digits]
    sign       := '-' ws | '+'
    name       := (letter | digit | '_')+

`ws` is any number of spaces. The rules that contain an expression take its parser as `inner`, and
`expression` ties the knot. An expression is factored on its first operand, so that the operand is
read once: after an operator there is no way back to the operand alone.
-/

namespace Reckoner.Grammar

open Reckoner.Parser Reckoner.TextParser

variable [Alphabet]

/-- The sign of a number; spaces may follow a minus. -/
def sign : TextParser Float :=
  firstOf (((char '-').seqLeft spaces).seqRight (.pure (-1.0)))
    [(char '+').seqRight (.pure 1.0), .pure 1.0]

/-- One or more digits. -/
def digits : TextParser (List Char) :=
  digit.many1

/-- A point and the digits after it. -/
def fraction : TextParser (List Char) :=
  ((char '.').seqRight digits).map fun text => '.' :: text

/-- An exponent, with a lower-case mark and no plus. -/
def exponent : TextParser (List Char) :=
  (((char 'e').orElse (char 'E')).seqRight sign).bind fun bit =>
    digits.map fun text => if bit < 0 then 'e' :: '-' :: text else 'e' :: text

/-- The numeral of a number without sign, as it is read. -/
def numeral : TextParser (List Char) :=
  let integral := digits.bind fun text => (fraction.orDefault []).map fun tail => text ++ tail
  (integral.orElse fraction).bind fun mantissa =>
    (exponent.orDefault []).map fun tail => mantissa ++ tail

/-- A number without sign. -/
def magnitude : TextParser Float :=
  numeral.map numeralValue

/-- A number. -/
def number : TextParser Float :=
  (sign.bind fun bit => magnitude.map fun value => bit * value).mapError
    (.expecting "number")

/-- The name of a variable or function. -/
def name : TextParser String :=
  ((alphanumeric.orElse (char '_')).many1.map String.ofList).mapError (.expecting "name")

/-- A number as an expression. -/
def numberOperand : TextParser Expr :=
  number.map .number

/-- A free variable. -/
def variableOperand : TextParser Expr :=
  ((char '#').seqRight name).map .var

/-- What an operator may be. -/
def operatorExpected : String :=
  "operator (" ++ String.intercalate ", " (Operation.all.map Operation.symbol) ++ ")"

/-- What an operand may be. -/
def operandExpected : String :=
  "number, variable, function call or '('"

/-- The sign of one operation. -/
def operatorSign (o : Operation) : TextParser Operation :=
  (literal o.symbol).map fun _ => o

/-- The sign of an operation. -/
def operator : TextParser Operation :=
  (firstOf (operatorSign .add) ((Operation.all.drop 1).map operatorSign)).mapError
    (.expecting operatorExpected)

section Nested

variable (inner : TextParser Expr)

/-- A reference to a value of the host. -/
def referenceOperand : TextParser Expr :=
  ((((((char 'v').seqRight (char '[')).seqRight spaces).seqRight inner).seqLeft spaces).seqLeft
    (char ']')).map .external

/-- An operand that the host binds to a value, by name or by index. -/
def boundOperand : TextParser Expr :=
  farthestOf variableOperand [referenceOperand inner]

/-- The arguments of a call, in parentheses. -/
def arguments : TextParser (List Expr) :=
  let separator := (spaces.seqLeft (char ',')).seqLeft spaces
  ((((char '(').seqRight spaces).seqRight (sepBy inner separator)).seqLeft spaces).seqLeft
    (char ')')

/-- A call of a function. -/
def callOperand : TextParser Expr :=
  (name.both (arguments inner)).map fun (name, args) => .call name args

/-- An expression in parentheses. -/
def groupOperand : TextParser Expr :=
  (((((char '(').seqRight spaces).seqRight inner).seqLeft spaces).seqLeft (char ')')).map
    Expr.group

/-- The error of an operand that starts at `start`: when not even its first character fits, an
operand of any kind is expected. -/
def operandError (start : Position) (e : TextError) : TextError :=
  if e.position? = some start then e.expecting operandExpected else e

/-- One operand. -/
def operand : TextParser Expr :=
  let anyKind :=
    farthestOf (groupOperand inner) [numberOperand, callOperand inner, boundOperand inner]
  position.bind fun start => anyKind.mapError (operandError start)

/-- The right-hand side of an operation, attached to its left operand. -/
def rightHandSide (o : Operation) (left : Expr) : TextParser Expr :=
  (spaces.seqRight inner).map fun right => left.attach o right

/-- What follows the first operand of an expression. -/
def continuation (left : Expr) : TextParser Expr :=
  ((((spaces.seqRight operator).map some).orDefault none).bind fun
    | none => .pure left
    | some o => rightHandSide inner o left)

/-- One level of an expression. -/
def expressionLevel : TextParser Expr :=
  (operand inner).bind (continuation inner)

end Nested

/-- An arithmetic expression. -/
def expression : TextParser Expr :=
  fix (some textStart) expressionLevel

/-- An expression that spans the whole text, spaces around it allowed. -/
def source : TextParser Expr :=
  ((spaces.seqRight expression).seqLeft spaces).seqLeft endOfText

/-- Fuel for reading a text: every level of an expression and every turn of a repetition reads at
least one character. -/
def enoughFuel (text : List Char) : Nat :=
  text.length + 2

end Reckoner.Grammar
