import Reckoner.Proofs.Grammar.Completeness
import Reckoner.Proofs.Grammar.Stability
import Reckoner.Proofs.Parser.Advancing
import Reckoner.Text.Letter

/-!
# Reading ends

Every rule of the grammar ends in a success or a failure, wherever in a text it is started, and
more fuel does not change its reply. An expression reads at least one character, and it enters the
rule again only behind the place where it was entered itself: what the inner parser does at that
place or before it makes no difference. The parsers that are repeated read a character at each turn.

The rules are described for indices, so the row and the column of the start do not matter.
-/

namespace Reckoner.Grammar

open Reckoner.Parser Reckoner.TextParser

variable {n m i : Nat} {text : List Char}

/-! ## Rules without expressions inside -/

theorem gains_sign (enough : text.length < n + i) : sign.Gains 0 n text i := by
  have minus : (((char '-').seqLeft spaces).seqRight (.pure (-1.0))).Gains 1 n text i :=
    ((gains_char '-').seqLeft (gains_spaces (Nat.lt_succ_of_lt enough))).seqRight (gains_pure _)
  have plus : ((char '+').seqRight (.pure 1.0)).Gains 1 n text i :=
    (gains_char '+').seqRight (gains_pure _)
  refine (minus.less (Nat.zero_le 1)).firstOf ?_
  exact List.forall_mem_cons.mpr
    ⟨plus.less (Nat.zero_le 1), List.forall_mem_singleton.mpr (gains_pure _)⟩

theorem gains_digits (enough : text.length < n + i) : digits.Gains 1 n text i :=
  (gains_satisfy _ _).many1 enough

theorem gains_fraction (enough : text.length < n + i) : fraction.Gains 2 n text i :=
  ((gains_char '.').seqRight (gains_digits (Nat.lt_succ_of_lt enough))).map _

theorem gains_exponent (enough : text.length < n + i) : exponent.Gains 2 n text i := by
  have mark : ((char 'e').orElse (char 'E')).Gains 1 n text i :=
    (gains_char 'e').orElse (gains_char 'E')
  have later : text.length < n + (i + 1) := Nat.lt_succ_of_lt enough
  exact (mark.seqRight (gains_sign later)).bind fun _ => (gains_digits later).map _

theorem gains_numeral (enough : text.length < n + i) : numeral.Gains 1 n text i := by
  have later : text.length < n + (i + 1) := Nat.lt_succ_of_lt enough
  have whole : (digits.bind fun text => (fraction.orDefault []).map fun tail => text ++ tail).Gains
      1 n text i :=
    (gains_digits enough).bind fun _ => ((gains_fraction later).orDefault []).map _
  have mantissa := whole.orElse ((gains_fraction enough).less (Nat.le_succ 1))
  exact mantissa.bind fun _ => ((gains_exponent later).orDefault []).map _

theorem gains_number (enough : text.length < n + i) : number.Gains 1 n text i :=
  ((gains_sign enough).bind fun _ => ((gains_numeral enough).map _).map _).mapError _

theorem gains_operator : operator.Gains 1 n text i := by
  have signs (o : Operation) : (operatorSign o).Gains 1 n text i := by
    have sign : ((literal o.symbol).map fun _ => o).Gains o.symbol.toList.length n text i :=
      (gains_literal o.symbol).map _
    rwa [length_symbol] at sign
  refine ((signs .add).firstOf fun q hq => ?_).mapError _
  obtain ⟨o, -, rfl⟩ := List.mem_map.mp hq
  exact signs o

section

variable [Alphabet]

theorem gains_nameChar : (alphanumeric.orElse (char '_')).Gains 1 n text i :=
  (((gains_satisfy _ _).orElse (gains_satisfy _ _)).mapError _).orElse (gains_char '_')

theorem gains_name (enough : text.length < n + i) : name.Gains 1 n text i :=
  ((gains_nameChar.many1 enough).map _).mapError _

end

/-! ## Rules with an expression inside

The parser `inner` only has to move on where the rules run it, which is behind their own start. -/

section Nested

variable {inner : TextParser Expr}

theorem gains_bracketed {α β : Type} {opening : TextParser β} {body : TextParser α} {gain : Nat}
    (close : Char) (hopen : opening.Gains 1 n text i) (hbody : body.Gains gain n text (i + 1))
    (enough : text.length < n + i) :
    ((((opening.seqRight spaces).seqRight body).seqLeft spaces).seqLeft (char close)).Gains 1 n text
      i := by
  have opened : (opening.seqRight spaces).Gains 1 n text i :=
    hopen.seqRight (gains_spaces (Nat.lt_succ_of_lt enough))
  have read := opened.seqRight hbody
  have padded := read.seqLeft (gains_spaces (by omega))
  exact (padded.seqLeft (gains_char close)).less (by omega)

theorem gains_referenceOperand (h : inner.Gains 1 n text (i + 1)) (enough : text.length < n + i) :
    (referenceOperand inner).Gains 1 n text i := by
  have opening : ((char 'v').seqRight (char '[')).Gains 1 n text i :=
    ((gains_char 'v').seqRight (gains_char '[')).less (Nat.le_succ 1)
  exact (gains_bracketed ']' opening h enough).map _

theorem gains_furtherArgument (h : inner.Gains 1 n text (i + 1)) (enough : text.length < n + i) :
    (furtherArgument inner).Gains 1 n text i := by
  have comma : (spaces.seqLeft (char ',')).Gains (0 + 1) n text i :=
    (gains_spaces enough).seqLeft (gains_char ',')
  have separator : ((spaces.seqLeft (char ',')).seqLeft spaces).Gains (0 + 1) n text i :=
    comma.seqLeft (gains_spaces (by omega))
  have later : inner.Gains 1 n text (i + (0 + 1)) := by rwa [Nat.zero_add]
  exact (separator.seqRight later).less (Nat.le_succ 1)

theorem gains_sepBy (h : inner.Gains 1 n text i) (enough : text.length < n + i) :
    (sepBy inner ((spaces.seqLeft (char ',')).seqLeft spaces)).Gains 0 n text i := by
  have more : (furtherArgument inner).Gains 1 n text (i + 1) :=
    gains_furtherArgument (h.from (by omega)) (Nat.lt_succ_of_lt enough)
  have rest := more.many (Nat.lt_succ_of_lt enough)
  have some := h.bind (f := fun first => (furtherArgument inner).many.map (first :: ·)) fun _ =>
    rest.map _
  exact some.orDefault []

theorem gains_arguments (h : inner.Gains 1 n text (i + 1)) (enough : text.length < n + i) :
    (arguments inner).Gains 1 n text i :=
  gains_bracketed ')' (gains_char '(') (gains_sepBy h (Nat.lt_succ_of_lt enough)) enough

theorem gains_groupOperand (h : inner.Gains 1 n text (i + 1)) (enough : text.length < n + i) :
    (groupOperand inner).Gains 1 n text i :=
  (gains_bracketed ')' (gains_char '(') h enough).map _

theorem gains_rightHandSide (o : Operation) (left : Expr) (h : inner.Gains 1 n text i)
    (enough : text.length < n + i) : (rightHandSide inner o left).Gains 1 n text i :=
  ((gains_spaces enough).seqRight h).map _

theorem gains_continuation (left : Expr) (h : inner.Gains 1 n text i)
    (enough : text.length < n + i) : (continuation inner left).Gains 0 n text i := by
  have sign : ((spaces.seqRight operator).map some).Gains 1 n text i :=
    ((gains_spaces enough).seqRight gains_operator).map _
  refine Gains.less ((sign.orDefault none).bind fun found => ?_) (Nat.zero_le (0 + 0))
  cases found with
  | none => exact gains_pure left
  | some o => exact (gains_rightHandSide o left h enough).less (Nat.zero_le 1)

variable [Alphabet]

theorem gains_variableOperand (enough : text.length < n + i) :
    variableOperand.Gains 1 n text i := by
  have whole := (gains_char '#').seqRight (gains_name (Nat.lt_succ_of_lt enough))
  exact (whole.less (Nat.le_succ 1)).map _

theorem gains_boundOperand (h : inner.Gains 1 n text (i + 1)) (enough : text.length < n + i) :
    (boundOperand inner).Gains 1 n text i :=
  (gains_variableOperand enough).farthestOf
    (List.forall_mem_singleton.mpr (gains_referenceOperand h enough))

theorem gains_callOperand (h : inner.Gains 1 n text (i + 1)) (enough : text.length < n + i) :
    (callOperand inner).Gains 1 n text i := by
  have args : (arguments inner).Gains 1 n text (i + 1) :=
    gains_arguments (h.from (Nat.le_succ _)) (Nat.lt_succ_of_lt enough)
  exact (((gains_name enough).both args).less (Nat.le_succ 1)).map _

theorem gains_operand (h : inner.Gains 1 n text (i + 1)) (enough : text.length < n + i) :
    (operand inner).Gains 1 n text i := by
  have number : numberOperand.Gains 1 n text i := (gains_number enough).map _
  have anyKind : (farthestOf (groupOperand inner)
      [numberOperand, callOperand inner, boundOperand inner]).Gains 1 n text i := by
    refine (gains_groupOperand h enough).farthestOf ?_
    exact List.forall_mem_cons.mpr ⟨number, List.forall_mem_cons.mpr
      ⟨gains_callOperand h enough, List.forall_mem_singleton.mpr (gains_boundOperand h enough)⟩⟩
  exact gains_position.bind fun _ => anyKind.mapError _

/-- An expression needs the parser of expressions only behind its first character. -/
theorem gains_expressionLevel (h : inner.Gains 1 n text (i + 1)) (enough : text.length < n + i) :
    (expressionLevel inner).Gains 1 n text i :=
  (gains_operand h enough).bind fun left =>
    gains_continuation left h (Nat.lt_succ_of_lt enough)

end Nested

section

variable [Alphabet]

/-- The deeper an expression is unfolded, the further ahead the end of the text may be. -/
theorem gains_expressionAt {depth : Nat} (deep : text.length < depth + i)
    (enough : text.length < n + i) : (expressionAt depth).Gains 1 n text i := by
  induction depth generalizing i with
  | zero =>
    -- no run starts behind the end of the text
    intro _ j _ first last
    omega
  | succ depth ih => exact gains_expressionLevel (ih (by omega) (by omega)) enough

theorem gains_expression (enough : text.length < n + i) : expression.Gains 1 n text i :=
  gains_expressionAt enough enough

theorem gains_source (enough : text.length < n + i) : source.Gains 1 n text i := by
  have start : (spaces.seqRight expression).Gains (0 + 1) n text i :=
    (gains_spaces enough).seqRight (gains_expression enough)
  have padded := start.seqLeft (gains_spaces (by omega))
  exact padded.seqLeft gains_endOfText

end

/-! ## Runs end -/

/-- A parser moves on by `gain` wherever it has more fuel than characters ahead, and then more fuel
does not change its reply. -/
structure Moves {α : Type} (p : TextParser α) (gain : Nat) : Prop where
  gains : ∀ {n i : Nat} {text : List Char}, text.length < n + i → p.Gains gain n text i
  stable : ∀ {n m : Nat}, n ≤ m → p.Extends n p m

section Moves

variable {α : Type} {p : TextParser α} {gain : Nat} {place : Position}

/-- With enough fuel there is one reply, and it is not a halt. -/
theorem Moves.reply (h : Moves p gain) (index : place.index = i) (inside : i ≤ text.length) :
    (∃ v q, ∀ n, text.length < n + i → p.parse n text place = .success v text q) ∨
      ∃ e rest q, ∀ n, text.length < n + i → p.parse n text place = .failure e rest q := by
  have enough : text.length < (text.length - i + 1) + i := by omega
  have least (n : Nat) (more : text.length < n + i) :=
    h.stable (show text.length - i + 1 ≤ n by omega) text place
  have ends := h.gains enough place i index (Nat.le_refl i) inside
  unfold Ends at ends
  generalize p.parse (text.length - i + 1) text place = reply at ends least
  cases ends with
  | @success v q _ => exact .inl ⟨v, q, fun n more => (least n more).of_success⟩
  | @failure e rest q _ => exact .inr ⟨e, rest, q, fun n more => (least n more).of_failure⟩
  | halted none => exact none.elim

/-- A success has moved on, however much fuel there was. -/
theorem Moves.of_success (h : Moves p gain) (index : place.index = i) (inside : i ≤ text.length)
    {v : α} {rest : List Char} {q : Position} (run : p.parse n text place = .success v rest q) :
    WithinText text (i + gain) q := by
  have enough : text.length < (n + (text.length + 1)) + i := by omega
  have same := h.stable (Nat.le_add_right n (text.length + 1)) text place
  have ends := h.gains enough place i index (Nat.le_refl i) inside
  rw [run] at same
  rw [Ends, same.of_success] at ends
  cases ends with
  | success hq => exact hq

end Moves

section

variable [Alphabet]

theorem moves_expression : Moves expression 1 :=
  ⟨gains_expression, extends_expression⟩

/-- The rules of the grammar. -/
inductive Rule : {α : Type} → TextParser α → Prop
  | spaces : Rule spaces
  | sign : Rule sign
  | digits : Rule digits
  | fraction : Rule fraction
  | exponent : Rule exponent
  | numeral : Rule numeral
  | magnitude : Rule magnitude
  | number : Rule number
  | name : Rule name
  | numberOperand : Rule numberOperand
  | variableOperand : Rule variableOperand
  | referenceOperand : Rule (referenceOperand expression)
  | boundOperand : Rule (boundOperand expression)
  | arguments : Rule (arguments expression)
  | callOperand : Rule (callOperand expression)
  | groupOperand : Rule (groupOperand expression)
  | operand : Rule (operand expression)
  | operator : Rule operator
  | rightHandSide (o : Operation) (left : Expr) : Rule (rightHandSide expression o left)
  | continuation (left : Expr) : Rule (continuation expression left)
  | expression : Rule expression
  | source : Rule source

/-- The parsers that the rules repeat: a digit in `digits`, a space in `spaces`, a character in
`name`, and in `arguments` a separator with the argument after it. -/
inductive Repeated : {α : Type} → TextParser α → Prop
  | digit : Repeated digit
  | space : Repeated (char ' ')
  | nameChar : Repeated (alphanumeric.orElse (char '_'))
  | furtherArgument : Repeated (furtherArgument expression)

theorem Rule.moves {α : Type} {p : TextParser α} (h : Rule p) : Moves p 0 := by
  constructor
  · intro n i text enough
    have inner : Grammar.expression.Gains 1 n text i := gains_expression enough
    have later : Grammar.expression.Gains 1 n text (i + 1) := inner.from (Nat.le_succ i)
    cases h with
    | spaces => exact gains_spaces enough
    | sign => exact gains_sign enough
    | digits => exact (gains_digits enough).less (Nat.zero_le _)
    | fraction => exact (gains_fraction enough).less (Nat.zero_le _)
    | exponent => exact (gains_exponent enough).less (Nat.zero_le _)
    | numeral => exact (gains_numeral enough).less (Nat.zero_le _)
    | magnitude => exact ((gains_numeral enough).map _).less (Nat.zero_le _)
    | number => exact (gains_number enough).less (Nat.zero_le _)
    | name => exact (gains_name enough).less (Nat.zero_le _)
    | numberOperand => exact ((gains_number enough).map _).less (Nat.zero_le _)
    | variableOperand => exact (gains_variableOperand enough).less (Nat.zero_le _)
    | referenceOperand => exact (gains_referenceOperand later enough).less (Nat.zero_le _)
    | boundOperand => exact (gains_boundOperand later enough).less (Nat.zero_le _)
    | arguments => exact (gains_arguments later enough).less (Nat.zero_le _)
    | callOperand => exact (gains_callOperand later enough).less (Nat.zero_le _)
    | groupOperand => exact (gains_groupOperand later enough).less (Nat.zero_le _)
    | operand => exact (gains_operand later enough).less (Nat.zero_le _)
    | operator => exact gains_operator.less (Nat.zero_le _)
    | rightHandSide o left => exact (gains_rightHandSide o left inner enough).less (Nat.zero_le _)
    | continuation left => exact gains_continuation left inner enough
    | expression => exact inner.less (Nat.zero_le _)
    | source => exact (gains_source enough).less (Nat.zero_le _)
  · intro n m more
    have inner := extends_expression more
    cases h with
    | spaces => exact extends_spaces more
    | sign => exact extends_sign more
    | digits => exact extends_digits more
    | fraction => exact extends_fraction more
    | exponent => exact extends_exponent more
    | numeral => exact extends_numeral more
    | magnitude => exact extends_magnitude more
    | number => exact extends_number more
    | name => exact extends_name more
    | numberOperand => exact extends_numberOperand more
    | variableOperand => exact extends_variableOperand more
    | referenceOperand => exact extends_referenceOperand inner more
    | boundOperand => exact extends_boundOperand inner more
    | arguments => exact extends_arguments inner more
    | callOperand => exact extends_callOperand inner more
    | groupOperand => exact extends_groupOperand inner more
    | operand => exact extends_operand inner more
    | operator => exact extends_operator
    | rightHandSide o left => exact extends_rightHandSide o left inner more
    | continuation left => exact extends_continuation left inner more
    | expression => exact inner
    | source => exact extends_source more

theorem Repeated.moves {α : Type} {p : TextParser α} (h : Repeated p) : Moves p 1 := by
  cases h with
  | digit => exact ⟨fun _ => gains_satisfy _ _, fun _ => extends_satisfy _ _⟩
  | space => exact ⟨fun _ => gains_char ' ', fun _ => extends_char ' '⟩
  | nameChar => exact ⟨fun _ => gains_nameChar, fun _ => extends_nameChar⟩
  | furtherArgument =>
    constructor
    · intro n i text enough
      exact gains_furtherArgument (gains_expression (Nat.lt_succ_of_lt enough)) enough
    · intro n m more
      exact (extends_separator more).seqRight (extends_expression more)

/-! ## Entries of an expression -/

/-- Expressions behind an index of one text; out of fuel anywhere else. -/
def expressionBehind (text : List Char) (i : Nat) : TextParser Expr where
  start? := some textStart
  parse := fun n s q =>
    if s = text ∧ i < q.index then expression.parse n s q else .halted .outOfFuel

theorem extends_expressionBehind {inner : TextParser Expr}
    (h : ∀ q : Position, i < q.index → inner.parse n text q = expression.parse n text q) :
    (expressionBehind text i).Extends n inner n := by
  intro s q
  by_cases behind : s = text ∧ i < q.index
  · obtain ⟨rfl, later⟩ := behind
    simp only [expressionBehind, later, and_self, if_true, h q later]
    exact .refl _
  · simp only [expressionBehind, behind, if_false]
    exact .outOfFuel _

theorem gains_expressionBehind (enough : text.length < n + i) :
    (expressionBehind text i).Gains 1 n text (i + 1) := by
  intro q j index first last
  have behind : (i : Int) < q.index := by
    rw [index]
    exact Int.ofNat_lt.mpr first
  have inner : expression.Gains 1 n text (i + 1) := gains_expression (Nat.lt_succ_of_lt enough)
  have ends := inner q j index first last
  simpa only [Ends, expressionBehind, behind, and_self, if_true] using ends

/-- The run of one level is determined by what the inner parser does behind its start. -/
theorem parse_expressionLevel {inner : TextParser Expr} {place : Position}
    (index : place.index = i) (inside : i ≤ text.length) (enough : text.length < n + i)
    (h : ∀ q : Position, i < q.index → inner.parse n text q = expression.parse n text q) :
    (expressionLevel inner).parse n text place = expression.parse n text place := by
  have behind : (expressionLevel (expressionBehind text i)).parse n text place ≠
      .halted .outOfFuel :=
    (gains_expressionLevel (gains_expressionBehind enough) enough).ne_outOfFuel index inside
  have whole : expression.parse n text place ≠ .halted .outOfFuel :=
    (gains_expression enough).ne_outOfFuel index inside
  obtain ⟨depth, rfl⟩ : ∃ depth, n = depth + 1 := Nat.exists_eq_add_of_le' (by omega)
  have same {q : TextParser Expr}
      (hq : (expressionBehind text i).Extends (depth + 1) q (depth + 1)) :
      (expressionLevel q).parse (depth + 1) text place =
        (expressionLevel (expressionBehind text i)).parse (depth + 1) text place :=
    (extends_expressionLevel hq (Nat.le_refl _) text place).eq behind
  -- `expression` is a level over the expressions of one depth less, and those extend to itself
  have deeper : (expressionAt depth).Extends (depth + 1) expression (depth + 1) :=
    extends_expressionAt (Nat.le_succ depth) (Nat.le_refl _)
  calc (expressionLevel inner).parse (depth + 1) text place
      = (expressionLevel (expressionBehind text i)).parse (depth + 1) text place :=
        same (extends_expressionBehind h)
    _ = (expressionLevel expression).parse (depth + 1) text place :=
        (same (extends_expressionBehind fun _ _ => rfl)).symm
    _ = expression.parse (depth + 1) text place :=
        (extends_expressionLevel deeper (Nat.le_refl _) text place).eq whole

/-- From every place in a text every rule ends: with more fuel than characters ahead it has one
reply, a success or a failure. An expression is determined by how the inner parser runs behind the
start of the expression, whatever that parser does elsewhere, so it is entered nowhere else. Every
parser that is repeated moves on when it succeeds, and so does an expression, which ends within the
text. -/
theorem reading_terminates {place : Position} (index : place.index = i)
    (inside : i ≤ text.length) :
    (∀ {α : Type} {p : TextParser α}, Rule p →
      (∃ v q, ∀ n, text.length < n + i → p.parse n text place = .success v text q) ∨
        ∃ e rest q, ∀ n, text.length < n + i → p.parse n text place = .failure e rest q) ∧
    (∀ (inner : TextParser Expr) (n : Nat), text.length < n + i →
      (∀ q : Position, place.index < q.index → inner.parse n text q = expression.parse n text q) →
      (expressionLevel inner).parse n text place = expression.parse n text place) ∧
    (∀ {α : Type} {p : TextParser α}, Repeated p → ∀ n v rest q,
      p.parse n text place = .success v rest q → place.index < q.index) ∧
    ∀ n e rest q, expression.parse n text place = .success e rest q →
      place.index < q.index ∧ q.index ≤ text.length := by
  have moved {α : Type} {p : TextParser α} (h : Moves p 1) {n v rest q}
      (run : p.parse n text place = .success v rest q) :
      place.index < q.index ∧ q.index ≤ text.length := by
    obtain ⟨j, index', first, last⟩ := h.of_success index inside run
    rw [index, index']
    exact ⟨Int.ofNat_lt.mpr first, Int.ofNat_le.mpr last⟩
  refine ⟨fun rule => rule.moves.reply index inside, fun inner n enough h => ?_,
    fun repeated _ _ _ _ run => (moved repeated.moves run).1, fun _ _ _ _ => moved moves_expression⟩
  rw [index] at h
  exact parse_expressionLevel index inside enough h

end

/-- Behind the parenthesis of a text: the source ends, the expression is not entered again at its
own start, and the digit and the expression that are read there have moved on. -/
theorem reading_terminates_digit :
    ((∃ v q, ∀ n, 3 < n + 1 →
        source.parse n ['(', '7', ')'] ⟨1, 1, 2⟩ = .success v ['(', '7', ')'] q) ∨
      ∃ e rest q, ∀ n, 3 < n + 1 →
        source.parse n ['(', '7', ')'] ⟨1, 1, 2⟩ = .failure e rest q) ∧
    (expressionLevel (expressionBehind ['(', '7', ')'] 1)).parse 3 ['(', '7', ')'] ⟨1, 1, 2⟩ =
      expression.parse 3 ['(', '7', ')'] ⟨1, 1, 2⟩ ∧
    (∃ v rest q, digit.parse 3 ['(', '7', ')'] ⟨1, 1, 2⟩ = .success v rest q ∧ 1 < q.index) ∧
    ∃ e rest q, expression.parse 3 ['(', '7', ')'] ⟨1, 1, 2⟩ = .success e rest q ∧
      1 < q.index ∧ q.index ≤ 3 := by
  obtain ⟨rule, entry, repeated, whole⟩ :=
    @reading_terminates 1 ['(', '7', ')'] _ ⟨1, 1, 2⟩ rfl (by decide)
  have behind (q : Position) (later : 1 < q.index) :
      (expressionBehind ['(', '7', ')'] 1).parse 3 ['(', '7', ')'] q =
        expression.parse 3 ['(', '7', ')'] q :=
    if_pos ⟨rfl, later⟩
  refine ⟨rule .source, entry _ 3 (by decide) behind, ?_, ?_⟩
  · exact ⟨_, _, _, rfl, repeated .digit 3 _ _ _ rfl⟩
  · exact ⟨_, _, _, rfl, whole 3 _ _ _ rfl⟩

end Reckoner.Grammar
