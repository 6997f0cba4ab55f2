import Reckoner.Proofs.Grammar.Lexical

/-!
# What is read is derived

The rules with an expression inside are run with a parser `inner` of expressions that is good for
texts below some length. Then they answer for texts up to that length, since each of them reads a
character before it runs `inner`. By induction on the depth of the unfolding, an expression answers
wherever the depth and the fuel exceed what is ahead: it does not halt, and what it reads is
derived.
-/

namespace Reckoner.Grammar

open Reckoner.Parser Reckoner.TextParser

variable {n bound : Nat} {before ahead rest s : List Char}

section

variable [Alphabet]

/-- Expressions nested at most `depth` levels deep. -/
def expressionAt (depth : Nat) : TextParser Expr where
  start? := some textStart
  parse := fun n => unfolded (some textStart) expressionLevel depth n

/-- `inner` answers for texts shorter than `bound`, and reads only what is derived. -/
def Sound (inner : TextParser Expr) (n bound : Nat) : Prop :=
  ∀ before ahead, ahead.length < bound →
    inner.Answers n before ahead (fun s _ e => Expression s e) fun _ => True

end

/-! ## Brackets -/

section Bracketed

variable {α β : Type} {opening : TextParser β} {body : TextParser α} {front : List Char}
  {good : List Char → α → Prop}

theorem answers_opened (enough : ahead.length ≤ n)
    (hopen : opening.Answers n before ahead (fun s _ _ => s = front) fun _ => True) :
    (opening.seqRight spaces).Answers n before ahead (fun s _ _ => ∃ i, s = front ++ blanks i)
      fun _ => True := by
  refine hopen.bind fun a rest _ split ha => ?_
  refine (answers_spaces (rest_le split enough)).mono ?_ fun _ h => h
  rintro piece _ _ - ⟨⟨i, rfl⟩, -⟩
  exact ⟨i, by rw [ha]⟩

theorem answers_openedBody (enough : ahead.length ≤ n)
    (hopen : opening.Answers n before ahead (fun s _ _ => s = front) fun _ => True)
    (hbody : ∀ before' ahead', front.length + ahead'.length ≤ ahead.length →
      body.Answers n before' ahead' (fun s _ v => good s v) fun _ => True) :
    ((opening.seqRight spaces).seqRight body).Answers n before ahead
      (fun s _ v => ∃ i t, s = front ++ (blanks i ++ t) ∧ good t v) fun _ => True := by
  refine (answers_opened enough hopen).bind fun a rest _ split ha => ?_
  obtain ⟨i, rfl⟩ := ha
  refine (hbody _ _ ?_).mono ?_ fun _ h => h
  · rw [split, List.length_append, List.length_append]
    omega
  · intro t _ v _ ht
    exact ⟨i, t, by rw [List.append_assoc], ht⟩

theorem answers_paddedBody (enough : ahead.length ≤ n)
    (hopen : opening.Answers n before ahead (fun s _ _ => s = front) fun _ => True)
    (hbody : ∀ before' ahead', front.length + ahead'.length ≤ ahead.length →
      body.Answers n before' ahead' (fun s _ v => good s v) fun _ => True) :
    (((opening.seqRight spaces).seqRight body).seqLeft spaces).Answers n before ahead
      (fun s _ v => ∃ i j t, s = front ++ (blanks i ++ (t ++ blanks j)) ∧ good t v)
      fun _ => True := by
  refine (answers_openedBody enough hopen hbody).bind fun a rest v split ha => ?_
  obtain ⟨i, t, rfl, ht⟩ := ha
  refine Answers.map _ ((answers_spaces (rest_le split enough)).mono ?_ fun _ h => h)
  rintro piece _ _ - ⟨⟨j, rfl⟩, -⟩
  exact ⟨i, j, t, by simp only [List.append_assoc], ht⟩

/-- A body in brackets, spaces allowed on both of its sides. -/
theorem answers_bracketed {close : Char} (enough : ahead.length ≤ n)
    (hopen : opening.Answers n before ahead (fun s _ _ => s = front) fun _ => True)
    (hbody : ∀ before' ahead', front.length + ahead'.length ≤ ahead.length →
      body.Answers n before' ahead' (fun s _ v => good s v) fun _ => True) :
    ((((opening.seqRight spaces).seqRight body).seqLeft spaces).seqLeft (char close)).Answers n
      before ahead
      (fun s _ v => ∃ i j t, s = front ++ (blanks i ++ (t ++ (blanks j ++ [close]))) ∧ good t v)
      fun _ => True := by
  refine (answers_paddedBody enough hopen hbody).bind fun a rest v split ha => ?_
  obtain ⟨i, j, t, rfl, ht⟩ := ha
  refine Answers.map _ ((answers_char close).mono ?_ fun _ h => h)
  rintro piece _ _ - rfl
  exact ⟨i, j, t, by simp only [List.append_assoc], ht⟩

end Bracketed

/-! ## Operands -/

variable {inner : TextParser Expr}

/-- The mark of a reference. -/
theorem answers_mark : ((char 'v').seqRight (char '[')).Answers n before ahead
    (fun s _ _ => s = ['v', '[']) fun _ => True := by
  refine (answers_char 'v').bind fun a rest _ _ ha => (answers_char '[').mono ?_ fun _ h => h
  rintro _ _ _ - rfl
  rw [ha]
  rfl

theorem answers_separator (enough : ahead.length ≤ n) :
    ((spaces.seqLeft (char ',')).seqLeft spaces).Answers n before ahead
      (fun s _ _ => ∃ i j, s = blanks i ++ ',' :: blanks j) fun _ => True := by
  have comma : (spaces.seqLeft (char ',')).Answers n before ahead
      (fun s _ _ => ∃ i, s = blanks i ++ [',']) fun _ => True := by
    refine Answers.bind (answers_spaces enough) fun a rest _ _ ha => ?_
    obtain ⟨⟨i, rfl⟩, -⟩ := ha
    refine Answers.map _ ((answers_char ',').mono ?_ fun _ h => h)
    rintro _ _ _ - rfl
    exact ⟨i, rfl⟩
  refine comma.bind fun a rest _ split ha => ?_
  obtain ⟨i, rfl⟩ := ha
  refine Answers.map _ ((answers_spaces (rest_le split enough)).mono ?_ fun _ h => h)
  rintro piece _ _ - ⟨⟨j, rfl⟩, -⟩
  exact ⟨i, j, by simp⟩

section

variable [Alphabet]

theorem answers_groupOperand (hi : Sound inner n bound) (short : ahead.length ≤ bound)
    (enough : ahead.length ≤ n) :
    (groupOperand inner).Answers n before ahead (fun s _ a => Operand s a) fun _ => True := by
  refine Answers.map _ ((answers_bracketed enough (answers_char '(') fun before' ahead' h =>
    hi before' ahead' (by rw [List.length_singleton] at h; omega)).mono ?_ fun _ h => h)
  rintro _ _ e - ⟨i, j, t, rfl, ht⟩
  exact .group i j ht

theorem answers_referenceOperand (hi : Sound inner n bound) (short : ahead.length ≤ bound)
    (enough : ahead.length ≤ n) :
    (referenceOperand inner).Answers n before ahead (fun s _ a => Operand s a)
      fun _ => True := by
  refine Answers.map _ ((answers_bracketed enough answers_mark fun before' ahead' h =>
    hi before' ahead' (by simp only [List.length_cons] at h; omega)).mono ?_ fun _ h => h)
  rintro _ _ e - ⟨i, j, t, rfl, ht⟩
  exact .reference i j ht

theorem answers_variableOperand (enough : ahead.length ≤ n) :
    variableOperand.Answers n before ahead (fun s _ a => Operand s a) fun _ => True := by
  refine Answers.map _ ((answers_char '#').bind fun a rest _ split ha => ?_)
  refine (answers_name (rest_le split enough)).mono ?_ fun _ h => h
  rintro s _ _ - ⟨hs, rfl⟩
  rw [ha]
  exact .var hs

theorem furtherArguments_of_row {es : List Expr}
    (h : Row (fun s e => ∃ i j t, s = blanks i ++ ',' :: (blanks j ++ t) ∧ Expression t e) s es) :
    FurtherArguments Expression s es := by
  induction h with
  | nil => exact .nil
  | @cons piece row e es he _ ih =>
    obtain ⟨i, j, t, rfl, ht⟩ := he
    have := FurtherArguments.cons i j ht ih
    simpa using this

theorem answers_sepBy (hi : Sound inner n bound) (short : ahead.length < bound)
    (enough : ahead.length < n) :
    (sepBy inner ((spaces.seqLeft (char ',')).seqLeft spaces)).Answers n before ahead
      (fun s _ es => Arguments Expression s es) fun _ => True := by
  suffices some : Answers (inner.bind _) n before ahead
      (fun s _ es => Arguments Expression s es) fun _ => True from
    some.orElse fun _ _ => answers_pure .none
  refine (hi before ahead short).bind fun a rest e split ha => ?_
  have rest_short : rest.length < bound ∧ rest.length < n := by
    rw [split, List.length_append] at short enough
    omega
  have item : ∀ b c, rest = b ++ c →
      (((spaces.seqLeft (char ',')).seqLeft spaces).seqRight inner).Answers n (before ++ a ++ b) c
        (fun s _ e => ∃ i j t, s = blanks i ++ ',' :: (blanks j ++ t) ∧ Expression t e)
        fun _ => True := by
    intro b c hbc
    have hc : c.length ≤ rest.length := by
      rw [hbc, List.length_append]
      omega
    refine (answers_separator (by omega)).bind fun d rest' _ split' hd => ?_
    obtain ⟨i, j, rfl⟩ := hd
    refine (hi _ rest' ?_).mono ?_ fun _ h => h
    · rw [split', List.length_append] at hc
      omega
    · intro t _ e _ ht
      exact ⟨i, j, t, by simp, ht⟩
  refine Answers.map _ ((answers_many ?_ rest_short.2 item).mono ?_ fun _ h => h)
  · rintro s v ⟨i, j, t, rfl, -⟩
    simp
  · intro row _ es _ hrow
    exact .some ha (furtherArguments_of_row hrow)

theorem answers_arguments (hi : Sound inner n bound) (short : ahead.length ≤ bound)
    (enough : ahead.length ≤ n) :
    (arguments inner).Answers n before ahead
      (fun s _ es => ∃ i j t, s = '(' :: (blanks i ++ (t ++ (blanks j ++ [')']))) ∧
        Arguments Expression t es) fun _ => True := by
  refine answers_bracketed enough (answers_char '(') fun before' ahead' h => ?_
  rw [List.length_singleton] at h
  exact answers_sepBy hi (by omega) (by omega)

theorem IsName.isFunctionName {f : List Char} (h : IsName f) (noDigit : NoDigit (f ++ rest)) :
    IsFunctionName f := by
  refine ⟨h, ?_⟩
  obtain ⟨c, f, rfl⟩ := List.exists_cons_of_ne_nil h.1
  exact noDigit

/-- A call is only tried where no number is read, so its name does not start with a digit. -/
theorem answers_callOperand (hi : Sound inner n bound) (short : ahead.length ≤ bound)
    (enough : ahead.length ≤ n) (noDigit : NoDigit ahead) :
    (callOperand inner).Answers n before ahead (fun s _ a => Operand s a) fun _ => True := by
  refine Answers.map _ ((answers_name enough).bind fun f rest v split hf => ?_)
  obtain ⟨hf, rfl⟩ := hf
  have function : IsFunctionName f := hf.isFunctionName (split ▸ noDigit)
  have rest_short := rest_le split short
  refine Answers.map _ ((answers_arguments hi rest_short (rest_le split enough)).mono ?_
    fun _ h => h)
  rintro _ _ es - ⟨i, j, t, rfl, ht⟩
  exact .call i j function ht

theorem answers_operand (hi : Sound inner n bound) (short : ahead.length ≤ bound)
    (enough : ahead.length ≤ n) :
    (operand inner).Answers n before ahead (fun s _ a => Operand s a) fun _ => True := by
  have group : (groupOperand inner).Answers n before ahead (fun s _ a => Operand s a)
      fun _ => True := answers_groupOperand hi short enough
  have number : numberOperand.Answers n before ahead (fun s _ a => Operand s a)
      fun _ => NoDigit ahead :=
    Answers.map _ ((answers_number enough).mono (fun _ _ _ _ h => .number h) fun _ h => h)
  have bound : (boundOperand inner).Answers n before ahead (fun s _ a => Operand s a)
      fun _ => True := by
    refine (answers_variableOperand enough).farthestOf fun q hq => ?_
    rw [List.mem_singleton.mp hq]
    exact answers_referenceOperand hi short enough
  have anyKind : (farthestOf (groupOperand inner)
      [numberOperand, callOperand inner, boundOperand inner]).Answers n before ahead
      (fun s _ a => Operand s a) fun _ => True := by
    -- a number comes before a call, so a call is only tried where no digit stands
    rcases number with ⟨piece, rest, a, rfl, reads, ha⟩ | ⟨e, misses, noDigit⟩
    · rcases group with ⟨piece', rest', a', split, reads', ha'⟩ | ⟨e, misses, -⟩
      · exact .inl ⟨piece', rest', a', split, reads'.farthestOf, ha'⟩
      · exact (Fails.farthestOf_reads ⟨e, misses⟩ reads.farthestOf).answers ha
    · refine group.farthestOf fun q hq => ?_
      simp only [List.mem_cons, List.not_mem_nil, or_false] at hq
      rcases hq with rfl | rfl | rfl
      · exact .inr ⟨e, misses, trivial⟩
      · exact answers_callOperand hi short enough noDigit
      · exact bound
  have start : position.Answers n before ahead (fun s _ _ => s = []) fun _ => True :=
    .inl ⟨[], ahead, _, rfl, reads_position, rfl⟩
  refine start.bind fun a rest start split ha => ?_
  subst ha
  obtain rfl : ahead = rest := split
  rw [List.append_nil]
  exact (anyKind.mapError _)

end

/-! ## Expressions -/

theorem length_symbol (o : Operation) : o.symbol.toList.length = 1 := by
  cases o <;> rfl

theorem answers_nextOperator (enough : ahead.length ≤ n) :
    (spaces.seqRight operator).Answers n before ahead
      (fun s _ o => ∃ i, s = blanks i ++ o.symbol.toList) fun _ => True := by
  refine (answers_spaces enough).bind fun d rest _ split hd => ?_
  obtain ⟨⟨i, rfl⟩, -⟩ := hd
  refine answers_operator.mono ?_ fun _ h => h
  rintro _ _ o - rfl
  exact ⟨i, rfl⟩

theorem answers_maybeOperator (enough : ahead.length ≤ n) :
    (((spaces.seqRight operator).map some).orDefault none).Answers n before ahead
      (fun s _ o => s = [] ∧ o = none ∨ ∃ o' i, o = some o' ∧ s = blanks i ++ o'.symbol.toList)
      fun _ => True := by
  have found : ((spaces.seqRight operator).map some).Answers n before ahead
      (fun s _ o => ∃ o' i, o = some o' ∧ s = blanks i ++ o'.symbol.toList) fun _ => True := by
    refine Answers.map _ ((answers_nextOperator enough).mono ?_ fun _ h => h)
    rintro _ _ o - ⟨i, rfl⟩
    exact ⟨o, i, rfl, rfl⟩
  refine found.orDefault.mono ?_ fun _ h => h
  rintro s _ o - (h | ⟨rfl, rfl⟩)
  · exact .inr h
  · exact .inl ⟨rfl, rfl⟩

variable [Alphabet]

theorem answers_rightHandSide {a : Expr} (o : Operation) (hi : Sound inner n bound)
    (short : ahead.length < bound) (enough : ahead.length ≤ n) :
    (rightHandSide inner o a).Answers n before ahead
      (fun s _ e => ∃ j t e', s = blanks j ++ t ∧ Expression t e' ∧ e = a.attach o e')
      fun _ => True := by
  refine Answers.map _ ((answers_spaces enough).bind fun d rest _ split hd => ?_)
  obtain ⟨⟨j, rfl⟩, -⟩ := hd
  refine (hi _ rest ?_).mono ?_ fun _ h => h
  · rw [split, List.length_append] at short
    omega
  · intro t _ e _ ht
    exact ⟨j, t, e, rfl, ht, rfl⟩

theorem answers_continuation {a : Expr} (hi : Sound inner n bound) (short : ahead.length ≤ bound)
    (enough : ahead.length ≤ n) :
    (continuation inner a).Answers n before ahead
      (fun s _ e => s = [] ∧ e = a ∨ ∃ i j o t e', s = blanks i ++ (o.symbol.toList ++
        (blanks j ++ t)) ∧ Expression t e' ∧ e = a.attach o e') fun _ => True := by
  refine (answers_maybeOperator enough).bind fun d rest o split hd => ?_
  rcases hd with ⟨rfl, rfl⟩ | ⟨o, i, rfl, rfl⟩
  · exact answers_pure (.inl ⟨rfl, rfl⟩)
  · rw [split, List.length_append, List.length_append, length_symbol] at short enough
    refine (answers_rightHandSide o hi (by omega) (by omega)).mono ?_ fun _ h => h
    rintro _ _ e - ⟨j, t, e', rfl, ht, rfl⟩
    exact .inr ⟨i, j, o, t, e', by simp only [List.append_assoc], ht, rfl⟩

theorem answers_expressionLevel (hi : Sound inner n bound) (short : ahead.length ≤ bound)
    (enough : ahead.length ≤ n) :
    (expressionLevel inner).Answers n before ahead (fun s _ e => Expression s e)
      fun _ => True := by
  refine (answers_operand hi short enough).bind fun s rest a split hs => ?_
  refine (answers_continuation hi (rest_le split short) (rest_le split enough)).mono ?_ fun _ h => h
  rintro _ _ e - (⟨rfl, rfl⟩ | ⟨i, j, o, t, e', rfl, ht, rfl⟩)
  · rw [List.append_nil]
    exact .operand hs
  · exact .operation i j o hs ht

/-- What is read at any depth is derived, and no depth halts before texts shorter than it. -/
theorem sound_expressionAt (depth : Nat) (h : depth ≤ n + 1) :
    Sound (expressionAt depth) n depth := by
  induction depth with
  | zero => exact fun _ _ short => absurd short (Nat.not_lt_zero _)
  | succ depth ih =>
    -- a level reads a character before it enters the next, so length and depth shrink together
    intro before ahead short
    have level : (expressionLevel (expressionAt depth)).Answers n before ahead
        (fun s _ e => Expression s e) fun _ => True :=
      answers_expressionLevel (ih (by omega)) (Nat.le_of_lt_succ short) (by omega)
    exact level.congr rfl

theorem answers_leading {text : List Char} (hi : Sound inner n n) (enough : text.length < n) :
    (spaces.seqRight inner).Answers n [] text
      (fun s _ e => ∃ i t, s = blanks i ++ t ∧ Expression t e) fun _ => True := by
  refine (answers_spaces (Nat.le_of_lt enough)).bind fun a rest _ split ha => ?_
  obtain ⟨⟨i, rfl⟩, -⟩ := ha
  have short : rest.length < n := by
    rw [split, List.length_append] at enough
    omega
  refine (hi _ rest short).mono ?_ fun _ h => h
  intro t _ e _ ht
  exact ⟨i, t, rfl, ht⟩

theorem answers_padded {text : List Char} (hi : Sound inner n n) (enough : text.length < n) :
    ((spaces.seqRight inner).seqLeft spaces).Answers n [] text (fun s _ e => Source s e)
      fun _ => True := by
  refine (answers_leading hi enough).bind fun a rest e split ha => ?_
  obtain ⟨i, t, rfl, ht⟩ := ha
  have rest_enough := rest_le split (Nat.le_of_lt enough)
  refine Answers.map _ ((answers_spaces rest_enough).mono ?_ fun _ h => h)
  rintro _ _ _ - ⟨⟨j, rfl⟩, -⟩
  rw [List.append_assoc]
  exact .mk i j ht

/-- A whole text answers, with any parser of expressions: it is read and derived, or not read. -/
theorem answers_spanning {text : List Char} (hi : Sound inner n n) (enough : text.length < n) :
    (((spaces.seqRight inner).seqLeft spaces).seqLeft endOfText).Answers n [] text
      (fun s rest e => rest = [] ∧ Source s e) fun _ => True := by
  refine (answers_padded hi enough).bind fun a rest e _ ha => ?_
  refine Answers.map _ (answers_endOfText.mono ?_ fun _ h => h)
  rintro _ _ _ - ⟨rfl, rfl⟩
  rw [List.append_nil]
  exact ⟨rfl, ha⟩

theorem sound_expression : Sound expression n n := by
  intro before ahead short
  have body := sound_expressionAt (n := n) n (Nat.le_succ n) before ahead short
  exact body.congr rfl

/-- A source answers: it reads a whole text that is derived, or fails. -/
theorem answers_source {text : List Char} (enough : text.length < n) :
    source.Answers n [] text (fun s rest e => rest = [] ∧ Source s e) fun _ => True :=
  answers_spanning sound_expression enough

end Reckoner.Grammar
