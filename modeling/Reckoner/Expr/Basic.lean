import Reckoner.Expr.Operation
import Reckoner.Value.Scalar

/-!
# Expressions

An expression is a number, a variable `#name`, a reference `v[index]` to a value of the host, a
call, or a binary operation. An operation is kept by its sign, which may be one that no operation
has, and records whether it was written in parentheses. A host may also hand over a tree with plain
values in it; these are `foreign` nodes.
-/

namespace Reckoner

/-- An arithmetic expression. -/
inductive Expr where
  | number (value : Float)
  | var (name : String)
  | external (index : Expr)
  | call (name : String) (args : List Expr)
  | binary (symbol : String) (left right : Expr) (grouped : Bool)
  | foreign (value : Scalar)

instance : Inhabited Expr := ⟨.foreign .null⟩

namespace Expr

/-- The name of the kind of node. -/
def kind : Expr → String
  | number _ => "Number"
  | var _ => "Variable"
  | external _ => "ExternalRef"
  | call _ _ => "Call"
  | binary .. => "Operator"
  | foreign v => v.kind

mutual
/-- Decides whether two expressions are equal in every part, parentheses included. -/
def decEq : (a b : Expr) → Decidable (a = b)
  | number x, number y => decidable_of_iff (x = y) (by simp)
  | var m, var n => decidable_of_iff (m = n) (by simp)
  | external i, external j =>
    have := decEq i j
    decidable_of_iff (i = j) (by simp)
  | call m as, call n bs =>
    have := decEqAll as bs
    decidable_of_iff (m = n ∧ as = bs) (by simp)
  | binary s a b g, binary t c d h =>
    have := decEq a c
    have := decEq b d
    decidable_of_iff (s = t ∧ a = c ∧ b = d ∧ g = h) (by simp)
  | foreign v, foreign w => decidable_of_iff (v = w) (by simp)
  | .number .., .var .. | .number .., .external .. | .number .., .call ..
  | .number .., .binary .. | .number .., .foreign ..
  | .var .., .number .. | .var .., .external .. | .var .., .call .. | .var .., .binary ..
  | .var .., .foreign ..
  | .external .., .number .. | .external .., .var .. | .external .., .call ..
  | .external .., .binary .. | .external .., .foreign ..
  | .call .., .number .. | .call .., .var .. | .call .., .external .. | .call .., .binary ..
  | .call .., .foreign ..
  | .binary .., .number .. | .binary .., .var .. | .binary .., .external ..
  | .binary .., .call .. | .binary .., .foreign ..
  | .foreign .., .number .. | .foreign .., .var .. | .foreign .., .external ..
  | .foreign .., .call .. | .foreign .., .binary .. => isFalse nofun

/-- Decides whether two lists of expressions are equal. -/
def decEqAll : (as bs : List Expr) → Decidable (as = bs)
  | [], [] => isTrue rfl
  | a :: as, b :: bs =>
    have := decEq a b
    have := decEqAll as bs
    decidable_of_iff (a = b ∧ as = bs) (by simp)
  | [], _ :: _ | _ :: _, [] => isFalse nofun
end

instance : DecidableEq Expr := decEq

mutual
/-- Expressions are the same when they have the same shape, names and signs, and numbers of equal
value. Parentheses make no difference. -/
def same : Expr → Expr → Bool
  | number x, number y => x == y
  | var m, var n => m = n
  | external i, external j => i.same j
  | call m as, call n bs => m = n && sameAll as bs
  | binary s a b _, binary t c d _ => s = t && a.same c && b.same d
  | foreign v, foreign w => v.same w
  | _, _ => false

/-- Expressions of two lists are the same one by one. -/
def sameAll : List Expr → List Expr → Bool
  | [], [] => true
  | a :: as, b :: bs => a.same b && sameAll as bs
  | _, _ => false
end

mutual
/-- No node is a plain value. -/
def isNative : Expr → Bool
  | number _ | var _ => true
  | external i => i.isNative
  | call _ args => allNative args
  | binary _ a b _ => a.isNative && b.isNative
  | foreign _ => false

/-- No node of the listed expressions is a plain value. -/
def allNative : List Expr → Bool
  | [] => true
  | a :: as => a.isNative && allNative as
end

/-- Marks an operation as written in parentheses; other expressions need no mark. -/
def group : Expr → Expr
  | binary s a b _ => binary s a b true
  | e => e

end Expr

end Reckoner
