import Reckoner.Proofs.Grammar.Completeness
import Reckoner.Text.Letter

/-!
# The grammar without factoring

    expression := operation | operand
    operation  := operand ws operator ws expression

with a plain choice that goes back to the operand when no operation is read. As parsers of a part of
a text the two grammars differ: before `1+)` this one reads `1`, while the factored one has read the
operator and fails. On whole sources they agree. What makes up for the difference is what may follow
an expression that ends: a closing bracket, a comma or the end, which no operator starts with. There
both read all that is derived, and neither reads anything else.
-/

namespace Reckoner.Grammar

open Reckoner.Parser Reckoner.TextParser

section

variable [Alphabet]

section Nested

variable (inner : TextParser Expr)

/-- An operand, an operator and an expression. -/
def operation : TextParser Expr :=
  (operand inner).bind fun left =>
    (spaces.seqRight operator).bind fun o => rightHandSide inner o left

/-- One level of an unfactored expression. -/
def unfactoredLevel : TextParser Expr :=
  (operation inner).orElse (operand inner)

end Nested

/-- An arithmetic expression, whose first operand is read again when no operation is found. -/
def unfactored : TextParser Expr :=
  fix (some textStart) unfactoredLevel

/-- An unfactored expression that spans the whole text, spaces around it allowed. -/
def unfactoredSource : TextParser Expr :=
  ((spaces.seqRight unfactored).seqLeft spaces).seqLeft endOfText

/-- Unfactored expressions nested at most `depth` levels deep. -/
def unfactoredAt (depth : Nat) : TextParser Expr where
  start? := some textStart
  parse := fun n => unfolded (some textStart) unfactoredLevel depth n

variable {n bound : Nat} {before ahead rest s : List Char} {e : Expr} {inner : TextParser Expr}

/-! ## What is read is derived -/

theorem answers_operation (hi : Sound inner n bound) (short : ahead.length ≤ bound)
    (enough : ahead.length ≤ n) :
    (operation inner).Answers n before ahead (fun s _ e => Expression s e) fun _ => True := by
  refine (answers_operand hi short enough).bind fun s rest a split ha => ?_
  have rest_short := rest_le split short
  have rest_enough := rest_le split enough
  refine (answers_nextOperator rest_enough).bind fun d rest' o split' hd => ?_
  obtain ⟨i, rfl⟩ := hd
  rw [split', List.length_append, List.length_append, length_symbol] at rest_short rest_enough
  refine (answers_rightHandSide o hi (by omega) (by omega)).mono ?_ fun _ h => h
  rintro _ _ e - ⟨j, t, e', rfl, ht, rfl⟩
  simpa only [List.append_assoc] using Expression.operation i j o ha ht

theorem answers_unfactoredLevel (hi : Sound inner n bound) (short : ahead.length ≤ bound)
    (enough : ahead.length ≤ n) :
    (unfactoredLevel inner).Answers n before ahead (fun s _ e => Expression s e)
      fun _ => True := by
  refine (answers_operation hi short enough).orElse fun _ _ => ?_
  exact (answers_operand hi short enough).mono (fun _ _ _ _ ha => .operand ha) fun _ h => h

theorem sound_unfactoredAt (depth : Nat) (h : depth ≤ n + 1) :
    Sound (unfactoredAt depth) n depth := by
  induction depth with
  | zero => exact fun _ _ short => absurd short (Nat.not_lt_zero _)
  | succ depth ih =>
    intro before ahead short
    have level : (unfactoredLevel (unfactoredAt depth)).Answers n before ahead
        (fun s _ e => Expression s e) fun _ => True :=
      answers_unfactoredLevel (ih (Nat.le_of_succ_le h)) (Nat.le_of_lt_succ short)
        (Nat.le_of_lt_succ (Nat.lt_of_lt_of_le short h))
    exact level.congr rfl

/-! ## What is derived is read -/

/-- After an operand that ends there is no operation, so the choice goes back to the operand. -/
theorem fails_operation (first : (operand inner).Reads n before s rest e) (hr : Closed rest)
    (enough : rest.length ≤ n) : (operation inner).Fails n before (s ++ rest) :=
  first.bind_fails (fails_nextOperator hr enough).bind

theorem reads_unfactoredLevel (hi : Complete inner n bound) (he : Expression s e)
    (hr : Closed rest) (short : (s ++ rest).length ≤ bound) (enough : (s ++ rest).length ≤ n) :
    (unfactoredLevel inner).Reads n before s rest e := by
  cases he with
  | operand ha =>
    have first : (operand inner).Reads n before s rest e :=
      reads_operand hi ha hr.separated short enough
    rw [List.length_append] at enough
    exact (fails_operation first hr (by omega)).orElse_reads first
  | @operation s t a e i j o ha ht =>
    simp only [List.append_assoc] at short enough
    have lengths := And.intro short enough
    simp only [List.length_append, List.length_replicate, length_symbol] at lengths
    have first : (operand inner).Reads n before s
        (blanks i ++ (o.symbol.toList ++ (blanks j ++ (t ++ rest)))) a :=
      reads_operand hi ha (separated_symbol i o) short enough
    have sign : (spaces.seqRight operator).Reads n (before ++ s) (blanks i ++ o.symbol.toList)
        (blanks j ++ t ++ rest) o := reads_nextOperator i o (by omega)
    have right : (rightHandSide inner o a).Reads n (before ++ s ++ (blanks i ++ o.symbol.toList))
        (blanks j ++ t) rest (a.attach o e) :=
      reads_rightHandSide hi ht j o hr (by rw [List.length_append]; omega) (by omega)
    have tail := sign.bind (f := fun o => rightHandSide inner o a) right
    have whole : (operation inner).Reads n before
        (s ++ (blanks i ++ o.symbol.toList ++ (blanks j ++ t))) rest (a.attach o e) :=
      Reads.bind (by simpa only [List.append_assoc] using first) tail
    have level : (unfactoredLevel inner).Reads n before
        (s ++ (blanks i ++ o.symbol.toList ++ (blanks j ++ t))) rest (a.attach o e) := whole.orElse
    simpa only [List.append_assoc] using level

theorem complete_unfactoredAt (depth : Nat) (h : depth ≤ n + 1) :
    Complete (unfactoredAt depth) n depth := by
  induction depth with
  | zero => exact ⟨fun _ _ short => absurd short (Nat.not_lt_zero _),
      fun short => absurd short (Nat.not_lt_zero _)⟩
  | succ depth ih =>
    constructor
    · intro before s rest e he hr short
      have level : (unfactoredLevel (unfactoredAt depth)).Reads n before s rest e :=
        reads_unfactoredLevel (ih (Nat.le_of_succ_le h)) he hr (Nat.le_of_lt_succ short)
          (Nat.le_of_lt_succ (Nat.lt_of_lt_of_le short h))
      exact level
    · intro before rest _
      have level : (unfactoredLevel (unfactoredAt depth)).Fails n before (')' :: rest) :=
        fails_operand_close.bind.orElse fails_operand_close
      exact level

/-! ## Both grammars read the same sources -/

theorem answers_unfactoredSource {text : List Char} (enough : text.length < n) :
    unfactoredSource.Answers n [] text (fun s rest e => rest = [] ∧ Source s e) fun _ => True := by
  refine answers_spanning (fun before ahead short => ?_) enough
  exact (sound_unfactoredAt n (Nat.le_succ n) before ahead short).congr rfl

theorem reads_unfactoredSource {text : List Char} (h : Source text e) (enough : text.length < n) :
    unfactoredSource.Reads n [] text [] e := by
  have body : Complete (unfactoredAt n) n n := complete_unfactoredAt n (Nat.le_succ n)
  have whole : Complete unfactored n n := ⟨body.reads, body.fails⟩
  exact reads_spanning whole h enough

/-- With more fuel than characters both grammars end. They read the same sources with the same
trees, to the end of the text, and they fail on the same texts. -/
theorem unfactored_agrees (text : List Char) (n : Nat) (enough : text.length < n) :
    (∃ e, source.run n text = .success e text (Position.start.after text) ∧
      unfactoredSource.run n text = .success e text (Position.start.after text)) ∨
    ∃ err err', source.run n text = .failure err text .start ∧
      unfactoredSource.run n text = .failure err' text .start := by
  rcases answers_source enough with ⟨piece, rest, e, split, -, rfl, derived⟩ | ⟨err, misses, -⟩
  · rw [List.append_nil] at split
    subst split
    have factored := reads_source derived enough
    have unfactored := reads_unfactoredSource derived enough
    exact .inl ⟨e, factored.parse_whole, unfactored.parse_whole⟩
  · have failed := misses.parse_whole
    rcases answers_unfactoredSource enough with
      ⟨piece, rest, e, split, -, rfl, derived⟩ | ⟨err', misses', -⟩
    · rw [List.append_nil] at split
      subst split
      rw [(reads_source derived enough).parse_whole] at failed
      exact nomatch failed
    · exact .inr ⟨err, err', failed, misses'.parse_whole⟩

end

/-- Both grammars read a product of a sum in parentheses and a variable. -/
theorem unfactored_agrees_sum :
    let text := "(#a+1)*#b".toList
    let sum : Expr := .binary "+" (.var "a") (.number 1.0) true
    let tree : Expr := .binary "*" sum (.var "b") false
    text.length < 10 ∧ source.run 10 text = .success tree text ⟨9, 1, 10⟩ ∧
      unfactoredSource.run 10 text = .success tree text ⟨9, 1, 10⟩ := by
  intro text sum tree
  have short : text.length < 10 := by decide
  have read : source.run 10 text = .success tree text ⟨9, 1, 10⟩ := by rfl
  rcases unfactored_agrees text 10 short with ⟨e, factored, unfactored⟩ | ⟨_, _, failed, -⟩
  · rw [read] at factored
    injection factored with same
    subst same
    exact ⟨short, read, unfactored⟩
  · rw [read] at failed
    cases failed

/-- As a parser of a part of a text the unfactored grammar reads more. -/
example : (∃ e rest q, unfactored.parse 9 "1+)".toList .start = .success e rest q) ∧
    ∃ err rest q, expression.parse 9 "1+)".toList .start = .failure err rest q :=
  ⟨⟨_, _, _, rfl⟩, ⟨_, _, _, rfl⟩⟩

end Reckoner.Grammar
