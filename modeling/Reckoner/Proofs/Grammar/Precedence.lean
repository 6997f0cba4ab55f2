import Reckoner.Proofs.Grammar.Derivation

/-!
# Chains and precedence

A chain is a first operand with links, each an operation and the operand after it. The grammar
builds the tree of a chain from the right, by attaching each operand to the tree of what follows it.
Precedence reads the chain the other way: it splits at the last of the loosest operations, and then
both sides in turn. Both give the same tree, whose operands are those of the chain in their order.

The links of a chain are compared by the loosest one only: where attaching descends below it, only
the links before it are left, and where attaching stops, the new link is looser than all others.
-/

namespace Reckoner

/-- An operation and the operand after it. -/
structure Link where
  operation : Operation
  operand : Expr

namespace Expr

/-- An operation that was not written in parentheses. Attaching descends into no other node. -/
def isOpen : Expr → Bool
  | binary _ _ _ false => true
  | _ => false

theorem isOpen_eq_false {e : Expr} (h : ∀ s l r, e = binary s l r false → False) :
    e.isOpen = false := by
  unfold isOpen
  split
  · exact (h _ _ _ rfl).elim
  · rfl

/-- The tree that the grammar builds of a chain; none if a sign that has to be compared stands for
no operation. -/
def chain? (a : Expr) : List Link → Option Expr
  | [] => some a
  | l :: links => do attach? l.operation.symbol a (← chain? l.operand links)

/-- The tree that the grammar builds of a chain. -/
def chain (a : Expr) : List Link → Expr
  | [] => a
  | l :: links => a.attach l.operation (chain l.operand links)

/-- The operands of a tree that is not entered where it is in parentheses, from left to right. -/
def operands : Expr → List Expr
  | binary _ l r false => l.operands ++ r.operands
  | e => [e]

/-- `a` is a node of a tree. -/
inductive Subtree (a : Expr) : Expr → Prop
  | self : Subtree a a
  | left {s : String} {l r : Expr} {g : Bool} : Subtree a l → Subtree a (binary s l r g)
  | right {s : String} {l r : Expr} {g : Bool} : Subtree a r → Subtree a (binary s l r g)
  | index {i : Expr} : Subtree a i → Subtree a (external i)
  | argument {f : String} {args : List Expr} {b : Expr} :
      b ∈ args → Subtree a b → Subtree a (call f args)

/-! ## The rule of precedence -/

/-- A chain cut at one of its links. -/
structure Cut where
  before : List Link
  link : Link
  after : List Link

/-- Cuts some links at the last of the loosest ones. -/
def cutLoosest (l : Link) : List Link → Cut
  | [] => ⟨[], l, []⟩
  | l' :: links =>
    let cut := cutLoosest l' links
    if l.operation.priority < cut.link.operation.priority then ⟨[], l, l' :: links⟩
    else { cut with before := l :: cut.before }

theorem length_cutLoosest (l : Link) (links : List Link) :
    (cutLoosest l links).before.length + (cutLoosest l links).after.length = links.length := by
  induction links generalizing l with
  | nil => rfl
  | cons l' links ih =>
    unfold cutLoosest
    dsimp only
    split
    · simp
    · have := ih l'
      simp only [List.length_cons]
      omega

/-- The tree of a chain by precedence: its root is the last of the loosest operations. -/
def byPrecedence (a : Expr) : List Link → Expr
  | [] => a
  | l :: links =>
    let cut := cutLoosest l links
    binary cut.link.operation.symbol (byPrecedence a cut.before)
      (byPrecedence cut.link.operand cut.after) false
termination_by links => links.length
decreasing_by
  · have := length_cutLoosest l links
    simp only [List.length_cons]
    omega
  · have := length_cutLoosest l links
    simp only [List.length_cons]
    omega

/-- The last of the loosest operations is no tighter than those before it and looser than those
after it. -/
structure Cut.Loosest (cut : Cut) : Prop where
  le_before : ∀ l ∈ cut.before, cut.link.operation.priority ≤ l.operation.priority
  lt_after : ∀ l ∈ cut.after, cut.link.operation.priority < l.operation.priority

theorem cutLoosest_append (l : Link) (links : List Link) :
    l :: links =
      (cutLoosest l links).before ++ (cutLoosest l links).link :: (cutLoosest l links).after := by
  induction links generalizing l with
  | nil => rfl
  | cons l' links ih =>
    unfold cutLoosest
    dsimp only
    split
    · rfl
    · exact congrArg (l :: ·) (ih l')

theorem cutLoosest_loosest (l : Link) (links : List Link) : (cutLoosest l links).Loosest := by
  induction links generalizing l with
  | nil => exact ⟨fun _ h => absurd h List.not_mem_nil, fun _ h => absurd h List.not_mem_nil⟩
  | cons l' links ih =>
    have tail := ih l'
    have parts := cutLoosest_append l' links
    unfold cutLoosest
    dsimp only
    split
    case isTrue looser =>
      refine ⟨fun _ h => absurd h List.not_mem_nil, fun m hm => ?_⟩
      rw [parts] at hm
      rcases List.mem_append.mp hm with hm | hm
      · exact Nat.lt_of_lt_of_le looser (tail.le_before m hm)
      · rcases List.mem_cons.mp hm with rfl | hm
        · exact looser
        · exact Nat.lt_trans looser (tail.lt_after m hm)
    case isFalse tighter =>
      refine ⟨fun m hm => ?_, tail.lt_after⟩
      rcases List.mem_cons.mp hm with rfl | hm
      · exact Nat.le_of_not_lt tighter
      · exact tail.le_before m hm

/-- There is only one place for the cut. -/
theorem cutLoosest_unique {before after : List Link} {m l : Link} {links : List Link}
    (parts : l :: links = before ++ m :: after) (loosest : Cut.Loosest ⟨before, m, after⟩) :
    cutLoosest l links = ⟨before, m, after⟩ := by
  induction links generalizing l before with
  | nil =>
    cases before with
    | nil =>
      obtain ⟨rfl, rfl⟩ := List.cons.inj parts
      rfl
    | cons _ _ => simp at parts
  | cons l' links ih =>
    have split := cutLoosest_append l' links
    unfold cutLoosest
    dsimp only
    -- the cut falls at `l` when `l` is looser than the cut of the rest, and else where that falls
    cases before with
    | nil =>
      obtain ⟨rfl, rfl⟩ := List.cons.inj parts
      have looser := loosest.lt_after (cutLoosest l' links).link
        (by rw [split]; exact List.mem_append_right _ List.mem_cons_self)
      rw [if_pos looser]
    | cons b before =>
      obtain ⟨rfl, parts'⟩ := List.cons.inj parts
      have tighter := loosest.le_before l List.mem_cons_self
      have shorter : Cut.Loosest ⟨before, m, after⟩ :=
        ⟨fun x (hx : x ∈ before) => loosest.le_before x (List.mem_cons_of_mem _ hx),
          loosest.lt_after⟩
      rw [ih parts' shorter, if_neg (Nat.not_lt.mpr tighter)]

@[simp]
theorem byPrecedence_nil (a : Expr) : byPrecedence a [] = a := by
  rw [byPrecedence]

/-- A chain is split at the last of its loosest operations. -/
theorem byPrecedence_split {before after : List Link} {m : Link} (a : Expr)
    (loosest : Cut.Loosest ⟨before, m, after⟩) :
    byPrecedence a (before ++ m :: after) =
      binary m.operation.symbol (byPrecedence a before) (byPrecedence m.operand after) false := by
  obtain ⟨l, links, parts⟩ : ∃ l links, l :: links = before ++ m :: after := by
    cases before with
    | nil => exact ⟨m, after, rfl⟩
    | cons l before => exact ⟨l, before ++ m :: after, rfl⟩
  rw [← parts, byPrecedence]
  simp only [cutLoosest_unique parts loosest]

/-- Every chain with links has such a split. -/
theorem exists_loosest (l : Link) (links : List Link) :
    ∃ before m after, l :: links = before ++ m :: after ∧ Cut.Loosest ⟨before, m, after⟩ :=
  ⟨_, _, _, cutLoosest_append l links, cutLoosest_loosest l links⟩

/-! ## Attaching follows precedence -/

theorem attach?_closed {symbol : String} {a b : Expr} (hb : b.isOpen = false) :
    attach? symbol a b = some (binary symbol a b false) := by
  unfold attach?
  split
  · exact absurd hb (by simp [isOpen])
  · rfl

theorem appliesBefore?_symbol (o m : Operation) :
    appliesBefore? o.symbol m.symbol = some (o.appliesBefore m) := by
  simp [appliesBefore?]

theorem attach?_open (o m : Operation) (a l r : Expr) :
    attach? o.symbol a (binary m.symbol l r false) =
      if o.appliesBefore m then
        (attach? o.symbol a l).map fun l' => binary m.symbol l' r false
      else some (binary o.symbol a (binary m.symbol l r false) false) := by
  rw [attach?, appliesBefore?_symbol]
  simp only [Option.bind_eq_bind, Option.bind_some, Option.pure_def]
  split
  · cases attach? o.symbol a l <;> rfl
  · rfl

/-- Attaching an operand to the tree of a chain gives the tree of the longer chain. -/
theorem attach?_byPrecedence (o : Operation) (a b : Expr) (links : List Link)
    (hb : b.isOpen = false) :
    attach? o.symbol a (byPrecedence b links) = some (byPrecedence a (⟨o, b⟩ :: links)) := by
  -- Attaching goes on with the links before the loosest one, so the length of the chain decreases.
  induction h : links.length using Nat.strongRecOn generalizing links with
  | ind length ih =>
  cases links with
  | nil =>
    rw [byPrecedence_nil, attach?_closed hb]
    have only : Cut.Loosest ⟨[], ⟨o, b⟩, []⟩ :=
      ⟨fun _ h => absurd h List.not_mem_nil, fun _ h => absurd h List.not_mem_nil⟩
    have single := byPrecedence_split a only
    rw [List.nil_append, byPrecedence_nil, byPrecedence_nil] at single
    rw [single]
  | cons l links =>
    obtain ⟨before, m, after, parts, loosest⟩ := exists_loosest l links
    rw [parts] at h ⊢
    rw [byPrecedence_split b loosest, attach?_open]
    by_cases first : o.appliesBefore m.operation = true
    · have shorter : before.length < length := by
        rw [← h, List.length_append, List.length_cons]
        omega
      have longer : Cut.Loosest ⟨⟨o, b⟩ :: before, m, after⟩ := by
        refine ⟨fun x hx => ?_, loosest.lt_after⟩
        rcases List.mem_cons.mp hx with rfl | hx
        · exact of_decide_eq_true first
        · exact loosest.le_before x hx
      rw [if_pos first, ih before.length shorter before rfl, Option.map_some,
        ← byPrecedence_split a longer, List.cons_append]
    · have looser : o.priority < m.operation.priority := by
        simpa [Operation.appliesBefore] using first
      have front : Cut.Loosest ⟨[], ⟨o, b⟩, before ++ m :: after⟩ := by
        refine ⟨fun _ h => absurd h List.not_mem_nil, fun x hx => ?_⟩
        rcases List.mem_append.mp hx with hx | hx
        · exact Nat.lt_of_lt_of_le looser (loosest.le_before x hx)
        · rcases List.mem_cons.mp hx with rfl | hx
          · exact looser
          · exact Nat.lt_trans looser (loosest.lt_after x hx)
      have root := byPrecedence_split a front
      rw [List.nil_append, byPrecedence_nil, byPrecedence_split b loosest] at root
      rw [if_neg first, root]

theorem chain?_byPrecedence (a : Expr) (links : List Link) (ha : a.isOpen = false)
    (hl : ∀ l ∈ links, l.operand.isOpen = false) :
    chain? a links = some (byPrecedence a links) := by
  induction links generalizing a with
  | nil => rw [chain?, byPrecedence_nil]
  | cons l links ih =>
    have hb := hl l List.mem_cons_self
    have tail := ih l.operand hb fun x hx => hl x (List.mem_cons_of_mem _ hx)
    rw [chain?, tail, Option.bind_eq_bind, Option.bind_some, attach?_byPrecedence _ _ _ _ hb]

/-- No sign in a chain fails to be compared. -/
theorem chain?_eq_chain (a : Expr) (links : List Link) (ha : a.isOpen = false)
    (hl : ∀ l ∈ links, l.operand.isOpen = false) : chain? a links = some (chain a links) := by
  induction links generalizing a with
  | nil => rfl
  | cons l links ih =>
    have hb := hl l List.mem_cons_self
    have hl' : ∀ x ∈ links, x.operand.isOpen = false := fun x hx => hl x (List.mem_cons_of_mem _ hx)
    have tail := ih l.operand hb hl'
    have attached : attach? l.operation.symbol a (chain l.operand links) =
        some (byPrecedence a (l :: links)) := by
      rw [Option.some.inj (tail.symm.trans (chain?_byPrecedence l.operand links hb hl'))]
      exact attach?_byPrecedence _ _ _ _ hb
    rw [chain?, tail, Option.bind_eq_bind, Option.bind_some, chain, attach, attached,
      Option.getD_some]

/-! ## Operands -/

theorem operands_closed {e : Expr} (h : e.isOpen = false) : e.operands = [e] := by
  unfold operands
  split
  · exact absurd h (by simp [isOpen])
  · rfl

theorem subtree_of_mem_operands {a e : Expr} (h : a ∈ e.operands) : Subtree a e := by
  induction e using operands.induct with
  | case1 s l r ihl ihr =>
    rw [operands, List.mem_append] at h
    rcases h with h | h
    · exact .left (ihl h)
    · exact .right (ihr h)
  | case2 e other =>
    rw [operands.eq_2 e other, List.mem_singleton] at h
    rw [h]
    exact .self

/-- The operands of the tree of a chain are those of the chain, in their order. -/
theorem operands_byPrecedence (a : Expr) (links : List Link) (ha : a.isOpen = false)
    (hl : ∀ l ∈ links, l.operand.isOpen = false) :
    (byPrecedence a links).operands = a :: links.map Link.operand := by
  induction h : links.length using Nat.strongRecOn generalizing a links with
  | ind length ih =>
  cases links with
  | nil =>
    rw [byPrecedence_nil, operands_closed ha]
    rfl
  | cons l links =>
    obtain ⟨before, m, after, parts, loosest⟩ := exists_loosest l links
    rw [parts] at h hl ⊢
    rw [List.length_append, List.length_cons] at h
    rw [byPrecedence_split a loosest, operands,
      ih before.length (by omega) a before ha
        (fun x hx => hl x (List.mem_append_left _ hx)) rfl,
      ih after.length (by omega) m.operand after
        (hl m (List.mem_append_right _ List.mem_cons_self))
        (fun x hx => hl x (List.mem_append_right _ (List.mem_cons_of_mem _ hx))) rfl]
    simp

/-- Building a chain from the right gives the tree of its precedence, whatever the signs, and every
operand is in that tree as it was. -/
theorem chain_precedence (a : Expr) (links : List Link) (ha : a.isOpen = false)
    (hl : ∀ l ∈ links, l.operand.isOpen = false) :
    chain? a links = some (byPrecedence a links) ∧ chain a links = byPrecedence a links ∧
      ∀ e ∈ a :: links.map Link.operand, Subtree e (byPrecedence a links) := by
  have tree := chain?_byPrecedence a links ha hl
  refine ⟨tree, Option.some.inj ((chain?_eq_chain a links ha hl).symm.trans tree), fun e he => ?_⟩
  rw [← operands_byPrecedence a links ha hl] at he
  exact subtree_of_mem_operands he

/-- In `#a - (#b + #c) * #d` the product is the right side of the difference. -/
theorem chain_precedence_sub_mul :
    (var "a").isOpen = false ∧
      (∀ l ∈ [Link.mk .sub (binary "+" (var "b") (var "c") true), ⟨.mul, var "d"⟩],
        l.operand.isOpen = false) ∧
      chain? (var "a") [⟨.sub, binary "+" (var "b") (var "c") true⟩, ⟨.mul, var "d"⟩] =
        some (binary "-" (var "a")
          (binary "*" (binary "+" (var "b") (var "c") true) (var "d") false) false) := by
  have closed : ∀ l ∈ [Link.mk .sub (binary "+" (var "b") (var "c") true), ⟨.mul, var "d"⟩],
      l.operand.isOpen = false := by simp [isOpen]
  have tree := (chain_precedence (var "a") _ rfl closed).1
  refine ⟨rfl, closed, tree.trans (congrArg some ?_)⟩
  simp [byPrecedence, cutLoosest, Operation.priority, Operation.symbol]

end Expr

namespace Grammar

theorem isOpen_group (e : Expr) : e.group.isOpen = false := by
  cases e <;> rfl

variable [Alphabet]

theorem Operand.isOpen_eq {s : List Char} {a : Expr} (h : Operand s a) : a.isOpen = false := by
  cases h with
  | group i j _ => exact isOpen_group _
  | number _ => rfl
  | var _ => rfl
  | reference i j _ => rfl
  | call i j _ _ => rfl

theorem Expression.exists_chain : ∀ {s : List Char} {e : Expr}, Expression s e →
    ∃ (a : Expr) (links : List Link), (∃ t, Operand t a) ∧
      (∀ l ∈ links, ∃ t, Operand t l.operand) ∧ e = Expr.chain a links
  | _, _, .operand ha => ⟨_, [], ⟨_, ha⟩, fun _ h => absurd h List.not_mem_nil, rfl⟩
  | _, _, .operation i j o ha he => by
    obtain ⟨b, links, hb, hl, rfl⟩ := Expression.exists_chain he
    refine ⟨_, ⟨o, b⟩ :: links, ⟨_, ha⟩, fun l h => ?_, rfl⟩
    rcases List.mem_cons.mp h with rfl | h
    · exact hb
    · exact hl l h

/-- An expression is a chain of operands, and its tree is that of their precedence. No sign in it
fails to be compared. -/
theorem Expression.byPrecedence {s : List Char} {e : Expr} (h : Expression s e) :
    ∃ (a : Expr) (links : List Link), (∃ t, Operand t a) ∧
      (∀ l ∈ links, ∃ t, Operand t l.operand) ∧ Expr.chain? a links = some e ∧
      e = Expr.byPrecedence a links := by
  obtain ⟨a, links, ⟨t, ha⟩, hl, rfl⟩ := h.exists_chain
  have closed : ∀ l ∈ links, l.operand.isOpen = false := fun l h =>
    let ⟨_, ht⟩ := hl l h
    ht.isOpen_eq
  have tree := Expr.chain?_eq_chain a links ha.isOpen_eq closed
  have same := tree.symm.trans (Expr.chain?_byPrecedence a links ha.isOpen_eq closed)
  exact ⟨a, links, ⟨t, ha⟩, hl, tree, Option.some.inj same⟩

end Grammar

end Reckoner
