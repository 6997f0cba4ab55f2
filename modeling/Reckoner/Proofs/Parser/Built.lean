import Reckoner.Expr.Grammar
import Reckoner.Proofs.Parser.Reverting
import Reckoner.Text.Letter

/-!
# Built parsers

The parsers of texts that are built from the primitives, `pure` and `fail` by nesting combinators.
Rules may refer to each other: the body of a rule is built from the rules it refers to, which are
assumed to be built there. All of these parsers revert.
-/

namespace Reckoner.Parser

/-! ## Rules that refer to each other -/

section Rules

variable {R ι κ : Type} {ε α : R → Type}

/-- Runs of some rules that may enter each other at most `depth` levels deep. -/
def unfoldedRules (start? : R → Option (Unit → Except Fault κ))
    (bodies : (∀ r, Parser ι κ (ε r) (α r)) → ∀ r, Parser ι κ (ε r) (α r)) :
    Nat → ∀ r, Nat → ι → κ → Reply ι κ (ε r) (α r)
  | 0, _, _, _, _ => .halted .outOfFuel
  | depth + 1, r, n, s, k =>
    (bodies (fun r => ⟨start? r, fun m => unfoldedRules start? bodies depth r m⟩) r).parse n s k

/-- The rules that `bodies` describes in terms of each other. -/
def fixRules (start? : R → Option (Unit → Except Fault κ))
    (bodies : (∀ r, Parser ι κ (ε r) (α r)) → ∀ r, Parser ι κ (ε r) (α r)) (r : R) :
    Parser ι κ (ε r) (α r) where
  start? := start? r
  parse := fun n s k => unfoldedRules start? bodies n r n s k

end Rules

section

variable {ι κ ε α : Type}

theorem unfolded_eq_unfoldedRules (start? : Option (Unit → Except Fault κ))
    (body : Parser ι κ ε α → Parser ι κ ε α) (depth : Nat) :
    unfolded start? body depth =
      unfoldedRules (R := Unit) (fun _ => start?) (fun q _ => body (q ())) depth () := by
  induction depth with
  | zero => rfl
  | succ depth ih =>
    funext n s k
    unfold unfolded unfoldedRules
    rw [ih]

/-- A single rule is a family of rules with one member. -/
theorem fix_eq_fixRules (start? : Option (Unit → Except Fault κ))
    (body : Parser ι κ ε α → Parser ι κ ε α) :
    fix start? body = fixRules (R := Unit) (fun _ => start?) (fun q _ => body (q ())) () := by
  unfold fix fixRules
  simp only [unfolded_eq_unfoldedRules]

end

/-! ## Nesting -/

/-- Some parsers of texts, of any types of errors and values. -/
abbrev Known := ∀ ε α : Type, Parser (List Char) Position ε α → Prop

/-- The parsers that are known, and those of some rules. -/
inductive Known.With (known : Known) {R : Type} {ε α : R → Type}
    (rules : ∀ r, Parser (List Char) Position (ε r) (α r)) : Known
  | known {ε α : Type} {p : Parser (List Char) Position ε α} : known ε α p → With known rules ε α p
  | rule (r : R) : With known rules (ε r) (α r) (rules r)

section

variable [Alphabet]

open TextParser in
/-- The parsers that are built from the primitives of texts, `pure`, `fail` and known parsers. -/
inductive BuiltFrom : Known → ∀ {ε α : Type}, Parser (List Char) Position ε α → Prop
  | assumed {known : Known} {ε α : Type} {p : Parser (List Char) Position ε α} :
      known ε α p → BuiltFrom known p
  | char {known : Known} (c : Char) : BuiltFrom known (char c)
  | codePoint {known : Known} (n : Int) : BuiltFrom known (codePoint n)
  | literal {known : Known} (pattern : String) : BuiltFrom known (literal pattern)
  | satisfy {known : Known} (accepts : Char → Bool) (expected : String) :
      BuiltFrom known (satisfy accepts expected)
  | digit {known : Known} : BuiltFrom known digit
  | letter {known : Known} : BuiltFrom known letter
  | alphanumeric {known : Known} : BuiltFrom known alphanumeric
  | endOfText {known : Known} : BuiltFrom known endOfText
  | spaces {known : Known} : BuiltFrom known spaces
  | position {known : Known} : BuiltFrom known position
  | pure {known : Known} {ε α : Type} (v : α) : BuiltFrom known (.pure v : Parser _ _ ε α)
  | fail {known : Known} {ε α : Type} (e : ε) : BuiltFrom known (.fail e : Parser _ _ ε α)
  | map {known : Known} {ε α β : Type} {p : Parser (List Char) Position ε α} (f : α → β) :
      BuiltFrom known p → BuiltFrom known (p.map f)
  | bind {known : Known} {ε α β : Type} {p : Parser (List Char) Position ε α}
      {f : α → Parser (List Char) Position ε β} :
      BuiltFrom known p → (∀ v, BuiltFrom known (f v)) → BuiltFrom known (p.bind f)
  | both {known : Known} {ε α β : Type} {p : Parser (List Char) Position ε α}
      {q : Parser (List Char) Position ε β} :
      BuiltFrom known p → BuiltFrom known q → BuiltFrom known (p.both q)
  | seqLeft {known : Known} {ε α β : Type} {p : Parser (List Char) Position ε α}
      {q : Parser (List Char) Position ε β} :
      BuiltFrom known p → BuiltFrom known q → BuiltFrom known (p.seqLeft q)
  | seqRight {known : Known} {ε α β : Type} {p : Parser (List Char) Position ε α}
      {q : Parser (List Char) Position ε β} :
      BuiltFrom known p → BuiltFrom known q → BuiltFrom known (p.seqRight q)
  | orElse {known : Known} {ε φ α : Type} {p : Parser (List Char) Position ε α}
      {q : Parser (List Char) Position φ α} :
      BuiltFrom known p → BuiltFrom known q → BuiltFrom known (p.orElse q)
  | mapError {known : Known} {ε φ α : Type} {p : Parser (List Char) Position ε α} (f : ε → φ) :
      BuiltFrom known p → BuiltFrom known (p.mapError f)
  | filter {known : Known} {ε α : Type} {p : Parser (List Char) Position ε α}
      (accepts : α → Bool) (error : α → ε) :
      BuiltFrom known p → BuiltFrom known (p.filter accepts error)
  | mapContext {known : Known} {ε α : Type} {p : Parser (List Char) Position ε α}
      (f : Position → Position) : BuiltFrom known p → BuiltFrom known (p.mapContext f)
  | transform {known : Known} {ε φ α β : Type} {p : Parser (List Char) Position ε α}
      (f : Parser (List Char) Position ε α → Parser (List Char) Position φ β) :
      BuiltFrom known (f p) → BuiltFrom known (p.transform f)
  | defer {known : Known} {ε α : Type} {provider : Unit → Parser (List Char) Position ε α} :
      BuiltFrom known (provider ()) → BuiltFrom known (defer provider)
  | sequence {known : Known} {ε α : Type} {ps : List (Parser (List Char) Position ε α)} :
      (∀ p ∈ ps, BuiltFrom known p) → BuiltFrom known (sequence ps)
  | firstOf {known : Known} {ε α : Type} {p : Parser (List Char) Position ε α}
      {others : List (Parser (List Char) Position ε α)} :
      BuiltFrom known p → (∀ q ∈ others, BuiltFrom known q) → BuiltFrom known (firstOf p others)
  | farthestOf {known : Known} {ε α : Type} [Reaching ε] {p : Parser (List Char) Position ε α}
      {others : List (Parser (List Char) Position ε α)} :
      BuiltFrom known p → (∀ q ∈ others, BuiltFrom known q) → BuiltFrom known (farthestOf p others)
  | many1 {known : Known} {ε α : Type} {p : Parser (List Char) Position ε α} :
      BuiltFrom known p → BuiltFrom known p.many1
  | many {known : Known} {ε α : Type} {p : Parser (List Char) Position ε α} :
      BuiltFrom known p → BuiltFrom known p.many
  | orDefault {known : Known} {ε α : Type} {p : Parser (List Char) Position ε α} (v : α) :
      BuiltFrom known p → BuiltFrom known (p.orDefault v)
  | sepBy {known : Known} {ε α β : Type} {p : Parser (List Char) Position ε α}
      {separator : Parser (List Char) Position ε β} :
      BuiltFrom known p → BuiltFrom known separator → BuiltFrom known (sepBy p separator)
  | rules {known : Known} {R : Type} {ε α : R → Type}
      (start? : R → Option (Unit → Except Fault Position))
      {bodies : (∀ r, Parser (List Char) Position (ε r) (α r)) →
        ∀ r, Parser (List Char) Position (ε r) (α r)} :
      (∀ rules r, BuiltFrom (known.With rules) (bodies rules r)) →
      ∀ r, BuiltFrom known (fixRules start? bodies r)

/-- The parsers that are built from nothing but the primitives of texts, `pure` and `fail`. -/
abbrev Built {ε α : Type} (p : Parser (List Char) Position ε α) : Prop :=
  BuiltFrom (fun _ _ _ => False) p

/-- A rule that refers to itself is built when its body is, from the rule. -/
theorem BuiltFrom.fix {known : Known} {ε α : Type}
    (start? : Option (Unit → Except Fault Position))
    {body : Parser (List Char) Position ε α → Parser (List Char) Position ε α}
    (h : ∀ q, BuiltFrom (known.With fun _ : Unit => q) (body q)) :
    BuiltFrom known (Parser.fix start? body) := by
  rw [fix_eq_fixRules]
  exact .rules (R := Unit) _ (fun rules _ => h (rules ())) ()

end

/-! ## Built parsers revert -/

section Primitives

open TextParser

theorem reverts_ofStep {α : Type}
    (step : List Char → Position → Except TextError (α × Position)) : (ofStep step).Reverts := by
  intro n s k
  unfold RevertsAt ofStep
  dsimp only
  split
  · trivial
  · exact ⟨rfl, rfl⟩

theorem reverts_ofLook {α : Type}
    (look : Position → Option Char → Except TextError (α × Position)) :
    (ofLook look).Reverts := by
  intro n s k
  unfold RevertsAt ofLook
  dsimp only
  split
  · trivial
  · split
    · trivial
    · exact ⟨rfl, rfl⟩

theorem reverts_satisfy (accepts : Char → Bool) (expected : String) :
    (satisfy accepts expected).Reverts :=
  reverts_ofLook _

theorem reverts_codePoint (n : Int) : (codePoint n).Reverts := by
  unfold codePoint
  split
  · exact fun _ _ _ => trivial
  · split
    · exact fun _ _ _ => trivial
    · exact reverts_satisfy _ _

theorem reverts_alphanumeric [Alphabet] : alphanumeric.Reverts := fun n s k =>
  (revertsAt_mapError _).mpr ((reverts_satisfy _ _ n s k).orElse letter)

end Primitives

section Reverting

variable {ε α : Type}

theorem reverts_sequence {ps : List (Parser (List Char) Position ε α)}
    (h : ∀ p ∈ ps, p.Reverts) : (sequence ps).Reverts := by
  cases ps with
  | nil => exact reverts_pure _
  | cons p ps =>
    cases ps with
    | nil => exact fun n s k => (revertsAt_map _).mpr (h p List.mem_cons_self n s k)
    | cons q ps => exact reverts_sequence_two p q ps

theorem reverts_firstOf {p : Parser (List Char) Position ε α}
    {others : List (Parser (List Char) Position ε α)} (hp : p.Reverts)
    (h : ∀ q ∈ others, q.Reverts) : (firstOf p others).Reverts := by
  intro n s k
  refine RevertsAt.firstOf p others ?_
  rcases List.mem_cons.mp (List.getLast_mem (List.cons_ne_nil p others)) with last | last
  · rw [last]
    exact hp n s k
  · exact h _ last n s k

/-- Every depth of the unfolding of some rules reverts, when the bodies revert as soon as the rules
that they refer to do. -/
theorem reverts_unfoldedRules {R : Type} {ε α : R → Type}
    (start? : R → Option (Unit → Except Fault Position))
    {bodies : (∀ r, Parser (List Char) Position (ε r) (α r)) →
      ∀ r, Parser (List Char) Position (ε r) (α r)}
    (h : ∀ rules, (∀ r, (rules r).Reverts) → ∀ r, (bodies rules r).Reverts) (depth : Nat) :
    ∀ r, Reverts ⟨start? r, fun m => unfoldedRules start? bodies depth r m⟩ := by
  induction depth with
  | zero => exact fun _ _ _ _ => trivial
  | succ depth ih => exact h _ ih

/-- What is built from parsers that revert reverts. -/
theorem BuiltFrom.reverts [Alphabet] {known : Known} {p : Parser (List Char) Position ε α}
    (h : BuiltFrom known p) (hk : ∀ ε α p, known ε α p → p.Reverts) : p.Reverts := by
  induction h with
  | assumed h => exact hk _ _ _ h
  | char c => exact reverts_satisfy _ _
  | codePoint n => exact reverts_codePoint n
  | literal pattern => exact reverts_ofStep _
  | satisfy accepts expected => exact reverts_satisfy accepts expected
  | digit => exact reverts_satisfy _ _
  | letter => exact reverts_satisfy _ _
  | alphanumeric => exact reverts_alphanumeric
  | endOfText => exact reverts_ofLook _
  | spaces => exact reverts_many _
  | position => exact reverts_ofStep _
  | pure v => exact reverts_pure v
  | fail e => exact reverts_fail e
  | map f _ ih => exact fun n s k => (revertsAt_map f).mpr (ih hk n s k)
  | bind _ _ _ _ => exact reverts_bind _ _
  | both _ _ _ _ => exact reverts_both _ _
  | seqLeft _ _ _ _ => exact reverts_seqLeft _ _
  | seqRight _ _ _ _ => exact reverts_seqRight _ _
  | orElse _ _ _ ih => exact fun n s k => (ih hk n s k).orElse _
  | mapError f _ ih => exact fun n s k => (revertsAt_mapError f).mpr (ih hk n s k)
  | filter accepts error _ _ => exact reverts_filter _ accepts error
  | mapContext f _ _ => exact reverts_mapContext _ f
  | transform f _ ih => exact ih hk
  | defer _ ih => exact fun n s k => (revertsAt_defer _).mpr (ih hk n s k)
  | sequence _ ih => exact reverts_sequence fun p hp => ih p hp hk
  | firstOf _ _ ihp ih => exact reverts_firstOf (ihp hk) fun q hq => ih q hq hk
  | farthestOf _ _ _ _ => exact reverts_farthestOf _ _
  | many1 _ _ => exact reverts_many1 _
  | many _ _ => exact reverts_many _
  | orDefault v _ _ => exact reverts_orDefault _ v
  | sepBy _ _ _ _ => exact reverts_sepBy _ _
  | rules start? _ r ih =>
    -- inside the bodies the rules are known parsers, which revert one level deeper
    refine fun n s k => reverts_unfoldedRules start? (fun rules hr r => ih rules r ?_) n r n s k
    intro ε α p hp
    cases hp with
    | known hp => exact hk ε α p hp
    | rule r => exact hr r

end Reverting

/-! ## The grammar of expressions is built -/

section Grammar

open Reckoner.Grammar

variable [Alphabet] {known : Known}

theorem built_sign : BuiltFrom known sign := by
  refine .firstOf (((BuiltFrom.char _).seqLeft .spaces).seqRight (.pure _)) ?_
  exact List.forall_mem_cons.mpr
    ⟨(BuiltFrom.char _).seqRight (.pure _), List.forall_mem_singleton.mpr (.pure _)⟩

theorem built_digits : BuiltFrom known digits :=
  .many1 .digit

theorem built_fraction : BuiltFrom known fraction :=
  .map _ ((BuiltFrom.char _).seqRight built_digits)

theorem built_exponent : BuiltFrom known exponent :=
  .bind (((BuiltFrom.char _).orElse (.char _)).seqRight built_sign) fun _ => .map _ built_digits

theorem built_number : BuiltFrom known number := by
  have integral : BuiltFrom known (digits.bind fun text =>
      (fraction.orDefault []).map fun tail => text ++ tail) :=
    .bind built_digits fun _ => .map _ (.orDefault _ built_fraction)
  have mantissa := integral.orElse built_fraction
  have numeral : BuiltFrom known numeral :=
    .bind mantissa fun _ => .map _ (.orDefault _ built_exponent)
  exact .mapError _ (.bind built_sign fun _ => .map _ (.map _ numeral))

theorem built_name : BuiltFrom known name :=
  .mapError _ (.map _ (.many1 (.orElse .alphanumeric (.char _))))

theorem built_operator : BuiltFrom known operator := by
  have signs (o : Operation) : BuiltFrom known (operatorSign o) := .map _ (.literal _)
  refine .mapError _ (.firstOf (signs _) fun q hq => ?_)
  obtain ⟨o, -, rfl⟩ := List.mem_map.mp hq
  exact signs o

variable {inner : TextParser Expr}

theorem built_bracketed {α β : Type} {opening : TextParser β} {body : TextParser α}
    (ho : BuiltFrom known opening) (hb : BuiltFrom known body) (close : Char) :
    BuiltFrom known ((((opening.seqRight TextParser.spaces).seqRight body).seqLeft
      TextParser.spaces).seqLeft (TextParser.char close)) :=
  (((ho.seqRight .spaces).seqRight hb).seqLeft .spaces).seqLeft (.char close)

theorem built_operand (h : BuiltFrom known inner) : BuiltFrom known (operand inner) := by
  have separator : BuiltFrom known
      ((TextParser.spaces.seqLeft (TextParser.char ',')).seqLeft TextParser.spaces) :=
    (BuiltFrom.spaces.seqLeft (.char _)).seqLeft .spaces
  have call : BuiltFrom known (callOperand inner) :=
    .map _ (.both built_name (built_bracketed (.char _) (.sepBy h separator) _))
  have reference : BuiltFrom known (referenceOperand inner) :=
    .map _ (built_bracketed ((BuiltFrom.char _).seqRight (.char _)) h _)
  have bound : BuiltFrom known (boundOperand inner) :=
    .farthestOf (.map _ ((BuiltFrom.char _).seqRight built_name))
      (List.forall_mem_singleton.mpr reference)
  have group : BuiltFrom known (groupOperand inner) := .map _ (built_bracketed (.char _) h _)
  refine .bind .position fun _ => .mapError _ (.farthestOf group ?_)
  exact List.forall_mem_cons.mpr ⟨.map _ built_number,
    List.forall_mem_cons.mpr ⟨call, List.forall_mem_singleton.mpr bound⟩⟩

theorem built_expressionLevel (h : BuiltFrom known inner) :
    BuiltFrom known (expressionLevel inner) := by
  refine .bind (built_operand h) fun a => .bind (.orDefault _ (.map _ ?_)) fun o? => ?_
  · exact BuiltFrom.spaces.seqRight built_operator
  · cases o? with
    | none => exact .pure _
    | some o => exact .map _ (BuiltFrom.spaces.seqRight h)

/-- Expressions are built, with the recursion through operands and right-hand sides. -/
theorem built_expression : BuiltFrom known expression :=
  .fix _ fun _ => built_expressionLevel (.assumed (.rule ()))

theorem built_source : Built source :=
  ((BuiltFrom.spaces.seqRight built_expression).seqLeft .spaces).seqLeft .endOfText

end Grammar

/-- Built parsers fail where they were started. Over any base parsers, also those that do not, the
sequences, filters, repetitions and choices by reach do so, and other choices do so as far as their
last alternative does. -/
theorem failures_give_back [Alphabet] :
    (∀ (ε α : Type) (p : Parser (List Char) Position ε α), Built p →
      ∀ n s k e s' k', p.parse n s k = .failure e s' k' → s' = s ∧ k' = k) ∧
    ∀ (ι κ ε φ α β : Type) (p : Parser ι κ ε α) (q : Parser ι κ ε β) (f : α → Parser ι κ ε β),
      (p.bind f).Reverts ∧ (p.both q).Reverts ∧ (p.seqLeft q).Reverts ∧ (p.seqRight q).Reverts ∧
      (∀ accepts error, (p.filter accepts error).Reverts) ∧
      (∀ g, (p.mapContext g).Reverts) ∧
      p.many1.Reverts ∧
      (∀ [Placed κ] [Reaching ε] others, (farthestOf p others).Reverts) ∧
      (∀ p' others, (sequence (p :: p' :: others)).Reverts) ∧
      (∀ (q : Parser ι κ φ α) n s k, q.RevertsAt n s k → (p.orElse q).RevertsAt n s k) ∧
      ∀ others n s k, ((p :: others).getLast (List.cons_ne_nil p others)).RevertsAt n s k →
        (firstOf p others).RevertsAt n s k := by
  refine ⟨fun ε α p built n s k e s' k' failed => ?_, fun ι κ ε φ α β p q f => ?_⟩
  · have back := built.reverts (fun _ _ _ none => none.elim) n s k
    rw [RevertsAt, failed] at back
    exact back
  · exact ⟨reverts_bind p f, reverts_both p q, reverts_seqLeft p q, reverts_seqRight p q,
      reverts_filter p, reverts_mapContext p, reverts_many1 p, reverts_farthestOf p,
      reverts_sequence_two p, fun _ _ _ _ last => last.orElse p,
      fun others _ _ _ last => last.firstOf p others⟩

/-- A source that cannot be read leaves the text and the place alone, and so does the choice between
any other parser and a source. -/
theorem failures_give_back_source :
    Built Grammar.source ∧
      (∀ n s k e s' k', Grammar.source.parse n s k = .failure e s' k' → s' = s ∧ k' = k) ∧
      ∀ (p : TextParser Expr) n s k, Grammar.source.RevertsAt n s k ∧
        (p.orElse Grammar.source).RevertsAt n s k ∧
        (firstOf p [Grammar.source]).RevertsAt n s k := by
  have back := failures_give_back.1 TextError Expr Grammar.source built_source
  have choices := failures_give_back.2 (List Char) Position TextError TextError Expr Expr
  refine ⟨built_source, back, fun p n s k => ?_⟩
  obtain ⟨-, -, -, -, -, -, -, -, -, orElse, firstOf⟩ := choices p p fun _ => p
  have last : Grammar.source.RevertsAt n s k := reverts_seqLeft _ _ n s k
  exact ⟨last, orElse Grammar.source n s k last, firstOf [Grammar.source] n s k last⟩

end Reckoner.Parser
