import Reckoner.Proofs.Grammar.Precedence

/-!
# Attaching an operand keeps the order

A tree is read from left to right as the operations that are not in parentheses and what stands
between them. Attaching a left operand and an operation to a tree, of whatever shape, puts the
reading of the operand and the operation before the reading of the tree.

Attaching goes down the left branch of the tree through some of its open operations, which make the
`descent`, and puts the new operation over the tree where it stops. So only the operations passed on
the way are made anew, with another left side, and all else in both trees stays as it is.
-/

namespace Reckoner.Expr

/-- What a reading consists of. -/
inductive Item where
  | operand (e : Expr)
  | sign (symbol : String)
deriving DecidableEq

/-- A tree from left to right: its open operations in their order, and every other node that they
lead to as one item. -/
def reading : Expr → List Item
  | binary s l r false => l.reading ++ .sign s :: r.reading
  | e => [.operand e]

/-- The open operations on the left branch of a tree, from the root down. -/
def leftSpine : Expr → List Expr
  | binary s l r false => binary s l r false :: l.leftSpine
  | _ => []

mutual
/-- The signs of all operations in a tree. -/
def symbols : Expr → List String
  | number _ | var _ | foreign _ => []
  | external index => index.symbols
  | call _ args => allSymbols args
  | binary s l r _ => s :: (l.symbols ++ r.symbols)

/-- The signs of all operations in the listed trees. -/
def allSymbols : List Expr → List String
  | [] => []
  | a :: args => a.symbols ++ allSymbols args
end

/-- An open operation without its left side. -/
structure Branch where
  symbol : String
  right : Expr

/-- The tree with a left branch of open operations, the first one at the root, and `e` under the
last one. -/
def under (descent : List Branch) (e : Expr) : Expr :=
  descent.foldr (fun b left => binary b.symbol left b.right false) e

variable {o : Operation} {left right e a : Expr} {descent : List Branch}

theorem under_cons (b : Branch) (descent : List Branch) (e : Expr) :
    under (b :: descent) e = binary b.symbol (under descent e) b.right false := rfl

/-! ## The way down -/

/-- Where the way down through the open operations of a left branch ends: the new operation is
applied before all that are passed, and not before an open operation that it stops at. -/
structure Settles (o : Operation) (descent : List Branch) (rest : Expr) : Prop where
  passed : ∀ b ∈ descent, appliesBefore? o.symbol b.symbol = some true
  stopped : ∀ s l r, rest = binary s l r false → appliesBefore? o.symbol s = some false

/-- Attaching to a tree of known signs goes down to some place and puts the new operation there. -/
theorem exists_descent (o : Operation) (left : Expr)
    (known : ∀ s ∈ right.symbols, ∃ m : Operation, m.symbol = s) :
    ∃ descent rest, right = under descent rest ∧ Settles o descent rest ∧
      attach? o.symbol left right = some (under descent (binary o.symbol left rest false)) := by
  induction right using leftSpine.induct with
  | case1 s l r ih =>
    obtain ⟨m, rfl⟩ := known s List.mem_cons_self
    rw [attach?_open]
    by_cases first : o.appliesBefore m = true
    · have inner := fun s (hs : s ∈ l.symbols) =>
        known s (List.mem_cons_of_mem _ (List.mem_append_left _ hs))
      obtain ⟨descent, rest, parts, settles, attached⟩ := ih inner
      refine ⟨⟨m.symbol, r⟩ :: descent, rest, ?_, ⟨?_, settles.stopped⟩, ?_⟩
      · rw [under_cons, ← parts]
      · refine List.forall_mem_cons.mpr ⟨?_, settles.passed⟩
        rw [appliesBefore?_symbol, first]
      · rw [if_pos first, attached, Option.map_some, under_cons]
    · refine ⟨[], _, rfl, ⟨nofun, ?_⟩, if_neg first⟩
      rintro _ _ _ ⟨⟩
      rw [appliesBefore?_symbol, eq_false_of_ne_true first]
  | case2 e other =>
    refine ⟨[], e, rfl, ⟨nofun, fun s l r same => (other s l r same).elim⟩, ?_⟩
    exact attach?_closed (isOpen_eq_false other)

/-! ## What is read and what is kept -/

/-- What is put in front of a tree deep in a left branch is read before all of the branch. -/
theorem reading_under (descent : List Branch) (symbol : String) (left rest : Expr) :
    (under descent (binary symbol left rest false)).reading =
      left.reading ++ .sign symbol :: (under descent rest).reading := by
  induction descent with
  | nil => rfl
  | cons b descent ih =>
    rw [under_cons, under_cons, reading, reading, ih, List.append_assoc, List.cons_append]

theorem isOpen_under (descent : List Branch) (symbol : String) (left rest : Expr) :
    (under descent (binary symbol left rest false)).isOpen = true := by
  cases descent <;> rfl

theorem subtree_under (descent : List Branch) (h : Subtree a e) : Subtree a (under descent e) := by
  induction descent with
  | nil => exact h
  | cons b descent ih => exact .left ih

/-- Where the end of a left branch is replaced, only the operations on the branch change. -/
theorem subtree_under_of {e' : Expr} (h : Subtree a (under descent e))
    (off : a ∉ (under descent e).leftSpine) (kept : Subtree a e → Subtree a e') :
    Subtree a (under descent e') := by
  induction descent with
  | nil => exact kept h
  | cons b descent ih =>
    rw [under_cons, leftSpine, List.mem_cons, not_or] at off
    cases h with
    | self => exact absurd rfl off.1
    | left h => exact .left (ih h off.2)
    | right h => exact .right h

/-- Attaching a left operand and an operation to a tree in which all signs are known gives an open
operation, which reads as the tree does with the operand and the operation put before it. It goes
down the left branch of the tree, past the open operations that the new one is applied before, and
makes only these anew: every node of the operand, and every node of the tree that is not on its left
branch, is in the result as it was. -/
theorem attach_keeps_order (o : Operation) (left : Expr) {right : Expr}
    (known : ∀ s ∈ right.symbols, ∃ m : Operation, m.symbol = s) :
    ∃ e, attach? o.symbol left right = some e ∧ left.attach o right = e ∧
      e.reading = left.reading ++ .sign o.symbol :: right.reading ∧ e.isOpen = true ∧
      (∃ descent rest, Settles o descent rest ∧ right = under descent rest ∧
        e = under descent (binary o.symbol left rest false)) ∧
      (∀ a, Subtree a left → Subtree a e) ∧
      ∀ a, Subtree a right → a ∉ right.leftSpine → Subtree a e := by
  obtain ⟨descent, rest, rfl, settles, attached⟩ := exists_descent o left known
  refine ⟨_, attached, ?_, reading_under descent _ left rest, isOpen_under descent _ left rest,
    ⟨descent, rest, settles, rfl, rfl⟩, fun a h => ?_, fun a h off => ?_⟩
  · rw [attach, attached, Option.getD_some]
  · exact subtree_under descent (.left h)
  · exact subtree_under_of h off .right

/-- An open difference attached by a division to `#c * #d + (#e - #f)`: it goes past the sum and the
product, and stays to the left of both. -/
theorem attach_keeps_order_quotient :
    (∀ s ∈ (binary "+" (binary "*" (var "c") (var "d") false)
        (binary "-" (var "e") (var "f") true) false).symbols, ∃ m : Operation, m.symbol = s) ∧
      ∃ e, attach? "/" (binary "-" (var "a") (var "b") false)
          (binary "+" (binary "*" (var "c") (var "d") false)
            (binary "-" (var "e") (var "f") true) false) = some e ∧
        e.reading = [.operand (var "a"), .sign "-", .operand (var "b"), .sign "/",
          .operand (var "c"), .sign "*", .operand (var "d"), .sign "+",
          .operand (binary "-" (var "e") (var "f") true)] ∧
        Subtree (binary "-" (var "a") (var "b") false) e ∧
        Subtree (binary "-" (var "e") (var "f") true) e := by
  have known : ∀ s ∈ (binary "+" (binary "*" (var "c") (var "d") false)
      (binary "-" (var "e") (var "f") true) false).symbols, ∃ m : Operation, m.symbol = s := by
    show ∀ s ∈ ["+", "*", "-"], ∃ m : Operation, m.symbol = s
    simp only [List.forall_mem_cons]
    exact ⟨⟨.add, rfl⟩, ⟨.mul, rfl⟩, ⟨.sub, rfl⟩, nofun⟩
  obtain ⟨e, attached, -, order, -, -, leftKept, rightKept⟩ :=
    attach_keeps_order .div (binary "-" (var "a") (var "b") false) known
  refine ⟨known, e, attached, order, leftKept _ .self, rightKept _ (.right .self) ?_⟩
  simp [leftSpine]

end Reckoner.Expr
