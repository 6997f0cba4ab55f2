import Reckoner.Eval.Signature
import Reckoner.Value.Scalar

/-!
# Errors of an evaluation

An evaluation ends in an `EvalError` when the expression does not fit its environment, and in a
`HostFault` when a value or function of the host cannot be used.
-/

namespace Reckoner

/-- What a name without a value stands for. -/
inductive BindingKind where
  | var
  | function
  | external
deriving DecidableEq, Repr

/-- The kind of name in words. -/
def BindingKind.text : BindingKind → String
  | var => "variable"
  | function => "function"
  | external => "external reference"

/-- What an expression asks for in vain. -/
inductive EvalError where
  /-- A name without a value. -/
  | unbound (kind : BindingKind) (name : String)
  /-- A call with a number of arguments that does not fit. -/
  | arity (function : String) (signature : Signature) (count : Nat)
  /-- A sign that stands for no operation. -/
  | unknownOperator (symbol : String)
  /-- A plain value in place of an expression. -/
  | unknownNode (value : Scalar)
deriving DecidableEq, Repr

/-- The error in words. -/
def EvalError.message : EvalError → String
  | unbound kind name => s!"Unbound {kind.text}: {name}"
  | arity function signature count =>
    s!"{function} requires {signature.describe}, got {argumentCount count}"
  | unknownOperator symbol => s!"Unknown operator: {symbol}"
  | unknownNode value => s!"Unknown expression node: {value.literal}"

/-- Why a value or function of the host cannot be used. -/
inductive HostFault where
  /-- A whole number too large for a double. -/
  | tooLarge
  /-- An index for which the host has no value. -/
  | missingEntry
  /-- A function that is not made for this many arguments. -/
  | wrongCount
deriving DecidableEq, Repr

/-- Why an evaluation ends without a value. -/
inductive Stop where
  | error (cause : EvalError)
  | host (cause : HostFault)
deriving DecidableEq, Repr

end Reckoner
