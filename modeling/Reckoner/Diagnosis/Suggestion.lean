import Reckoner.Parser.Text
import Reckoner.Text.Blank

/-!
# Suggestions for a malformed source

Suggestions look at what was expected and found where reading stopped, and at the brackets and the
end of the whole source.
-/

namespace Reckoner

/-- A hint at the mistake in a source. -/
inductive Suggestion where
  | closeParenthesis
  | closeReference
  | removeParenthesis
  | useOperator
  | addOperand
deriving DecidableEq, Repr

namespace Suggestion

/-- The hint in words. -/
def text : Suggestion → String
  | closeParenthesis => "A '(' is never closed - add the missing ')'"
  | closeReference => "A 'v[' reference is never closed - add the missing ']'"
  | removeParenthesis => "Remove the unmatched ')'"
  | useOperator => "Operators must be one of + - * / ^"
  | addOperand => "The expression ends with an operator - add its right operand"

/-- The source has more of one bracket than of its partner. -/
def leavesOpen (opening closing : Char) (source : List Char) : Bool :=
  source.count closing < source.count opening

/-- The last character that is not blank is an operator. -/
def endsWithOperator (source : List Char) : Bool :=
  match (trimRight source).getLast? with
  | some c => c ∈ ['+', '-', '*', '/', '^']
  | none => false

/-- The hints for a source in which `expected` was looked for and `found` stood. -/
def all (expected found : String) (source : List Char) : List Suggestion :=
  let atEnd := found = TextError.endMark
  let expectedEnd := expected = TextError.endMark
  (if atEnd ∧ leavesOpen '(' ')' source then [closeParenthesis] else []) ++
  (if atEnd ∧ leavesOpen '[' ']' source then [closeReference] else []) ++
  (if expectedEnd ∧ found = ")" then [removeParenthesis]
    else if expectedEnd ∧ trim found.toList ≠ [] then [useOperator] else []) ++
  (if atEnd ∧ endsWithOperator source then [addOperand] else [])

end Suggestion

end Reckoner
