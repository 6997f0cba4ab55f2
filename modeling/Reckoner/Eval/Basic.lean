import Reckoner.Eval.Environment
import Reckoner.Eval.Run
import Reckoner.Expr.Basic

/-!
# Evaluation

An expression is evaluated from left to right. The name of a function and the sign of an operation
are resolved before the operands are evaluated; the number of arguments and the presence of a lookup
are checked after that. A function draws its random numbers when it is called. With `debug`, a trace
has one line for every node on which evaluation starts, and one for every value that is looked up or
computed.
-/

namespace Reckoner

/-- Calls a function under its name with the values of the arguments. -/
def Function.call (debug : Bool) (function : Function) (name : String) (values : List Float) :
    Run Float := do
  Run.ofCheck (function.check name values.length)
  let drawn ← Run.draw function.draws
  let value ← Run.ofHost (function.apply drawn values)
  let shown := String.intercalate ", " (values.map floatText)
  Run.note debug s!"  {name}({shown}) = {floatText value}"
  return value

namespace Expr

mutual
/-- The value of an expression in an environment. -/
def evaluate (debug : Bool) (env : Environment) : Expr → Run Float
  | number x => do
    Run.note debug "Evaluating: Number"
    return x
  | var name => do
    Run.note debug "Evaluating: Variable"
    match env.vars.get? name with
    | none => Run.stop (.unbound .var ("#" ++ name))
    | some value =>
      Run.note debug s!"  #{name} = {value.text}"
      Run.ofHost value.toFloat
  | external index => do
    Run.note debug "Evaluating: ExternalRef"
    let i ← index.evaluate debug env
    let reference := "v[" ++ cutText indexDigits i ++ "]"
    match env.lookup? with
    | none => Run.stop (.unbound .external reference)
    | some lookup =>
      let found ← Run.ask i (lookup i)
      let value ← Run.ofHost found.toFloat
      Run.note debug s!"  {reference} = {floatText value}"
      return value
  | call name args => do
    Run.note debug "Evaluating: Call"
    match env.resolve? name with
    | none => Run.stop (.unbound .function name)
    | some function =>
      let values ← evaluateAll debug env args
      function.call debug name values
  | binary symbol left right _ => do
    Run.note debug "Evaluating: Operator"
    match Operation.ofSymbol? symbol with
    | none => Run.stop (.unknownOperator symbol)
    | some operation =>
      let x ← left.evaluate debug env
      let y ← right.evaluate debug env
      let value := operation.apply x y
      Run.note debug s!"  {floatText x} {symbol} {floatText y} = {floatText value}"
      return value
  | foreign value => do
    Run.note debug s!"Evaluating: {value.kind}"
    Run.stop (.unknownNode value)

/-- The values of the listed expressions. -/
def evaluateAll (debug : Bool) (env : Environment) : List Expr → Run (List Float)
  | [] => return []
  | e :: es => do
    let value ← e.evaluate debug env
    let values ← evaluateAll debug env es
    return value :: values
end

end Expr

end Reckoner
