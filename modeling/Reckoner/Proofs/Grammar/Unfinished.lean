import Reckoner.Proofs.Grammar.Diagnosis
import Reckoner.Proofs.Grammar.Nesting
import Reckoner.Proofs.Grammar.Resumption
import Reckoner.Proofs.Grammar.Stability
import Reckoner.Proofs.Parser.Choices
import Reckoner.Text.Letter

/-!
# Unfinished texts in brackets

A text that breaks off is just as unfinished behind an opening parenthesis or the mark of a
reference: the error of what is inside is passed on, since no other kind of operand gets so far. A
call does not pass it on. Its arguments may be none, so when the first one breaks off, the call goes
on without it and asks for the closing parenthesis where that argument starts.
-/

namespace Reckoner.Grammar

open Reckoner.Parser Reckoner.TextParser

variable {n m depth i : Nat} {before ahead piece rest : List Char} {inner : TextParser Expr}
  {x : String} {found? : Option Char}

/-! ## Operands that fail -/

/-- The error of a choice is the one that got furthest. -/
theorem misses_farthestOf {α : Type} {p : TextParser α} {others : List (TextParser α)}
    {es : List TextError} {d e : TextError} (first : p.Misses n before ahead d)
    (h : List.Forall₂ (fun q e => q.Misses n before ahead e) others es) (mem : e ∈ d :: es)
    (furthest : ∀ a ∈ d :: es, a = e ∨ Reaching.reach a < Reaching.reach e) :
    (farthestOf p others).Misses n before ahead e := by
  have later : List.Forall₂
      (fun q e => q.FailsWith n (before ++ ahead) (Position.start.after before) e) others es :=
    h.imp fun q e misses => ⟨_, _, misses⟩
  exact FailsWith.farthestOf_eq ⟨_, _, first⟩ later (fun _ _ => rfl) mem furthest

theorem misses_referenceOperand (h : ahead.head? ≠ some 'v') :
    (referenceOperand inner).Misses n before ahead
      (errorAt (String.singleton 'v') (Position.start.after before) ahead.head?) :=
  ((((((misses_char h).bind).bind).bind).bind).bind).map _

/-- An error is not relabelled when it was met behind the start of the operand. -/
theorem operandError_behind (some : piece ≠ []) :
    operandError (Position.start.after before)
        (errorAt x (Position.start.after (before ++ piece)) found?) =
      errorAt x (Position.start.after (before ++ piece)) found? := by
  refine if_neg fun same => some ?_
  have indices := congrArg Position.index (Option.some.inj same)
  rw [Position.index_start_after, Position.index_start_after, List.length_append] at indices
  exact List.eq_nil_of_length_eq_zero (by omega)

/-- A bracketed body passes its error on. -/
theorem misses_bracketed {α β : Type} {opening : TextParser β} {body : TextParser α} {v : β}
    {close : Char} {e : TextError} (ho : opening.Reads n before piece (blanks i ++ rest) v)
    (stops : rest.head? ≠ some ' ') (enough : i ≤ n)
    (hb : body.Misses n (before ++ (piece ++ blanks i)) rest e) :
    ((((opening.seqRight spaces).seqRight body).seqLeft spaces).seqLeft (char close)).Misses n
      before (piece ++ blanks i ++ rest) e :=
  (((ho.seqRight (reads_spaces stops enough)).bind_misses hb).bind).bind

/-- The mark of a reference is missed at its first character or at its second one. -/
theorem exists_misses_referenceOperand (h : ¬ ['v', '['] <+: ahead) :
    ∃ d, (referenceOperand inner).Misses n before ahead d ∧
      Reaching.reach d ≤ (before.length : Int) + 1 := by
  by_cases mark : ahead.head? = some 'v'
  · obtain ⟨rest, rfl⟩ := List.head?_eq_some_iff.mp mark
    have open? : rest.head? ≠ some '[' := by
      intro found
      obtain ⟨rest', rfl⟩ := List.head?_eq_some_iff.mp found
      exact h ⟨rest', rfl⟩
    have missed : ((char 'v').seqRight (char '[')).Misses n before (['v'] ++ rest)
        (errorAt (String.singleton '[') (Position.start.after (before ++ ['v'])) rest.head?) :=
      (reads_char 'v').bind_misses (misses_char open?)
    refine ⟨_, ((((missed.bind).bind).bind).bind).map _, ?_⟩
    rw [reach_errorAt, List.length_append, List.length_singleton]
    exact Int.le_refl _
  · refine ⟨_, misses_referenceOperand mark, ?_⟩
    rw [reach_errorAt]
    omega

/-- Arguments that break off in the first one are none, and are not closed. -/
theorem misses_arguments (stops : rest.head? ≠ some ' ') (enough : i ≤ n)
    (noClose : rest.head? ≠ some ')') (h : inner.Fails n (before ++ '(' :: blanks i) rest) :
    (arguments inner).Misses n before ('(' :: (blanks i ++ rest))
      (errorAt (String.singleton ')') (Position.start.after (before ++ '(' :: blanks i))
        rest.head?) := by
  have opened : ((char '(').seqRight spaces).Reads n before (['('] ++ blanks i) rest (blanks i) :=
    (reads_char '(').seqRight (reads_spaces stops enough)
  have none : (sepBy inner ((spaces.seqLeft (char ',')).seqLeft spaces)).Reads n
      (before ++ (['('] ++ blanks i)) [] rest [] :=
    Fails.orElse_reads (Fails.bind h) reads_pure
  have read := opened.seqRight none
  rw [List.append_nil] at read
  have padded := read.seqLeft (reads_spaces (i := 0) stops (Nat.zero_le n))
  rw [List.replicate_zero, List.append_nil] at padded
  have close : (char ')').Misses n (before ++ (['('] ++ blanks i)) rest _ := misses_char noClose
  exact padded.bind_misses (close.map _)

theorem blanks_le_enoughFuel (front : List Char) :
    i ≤ enoughFuel (front ++ (blanks i ++ rest)) := by
  simp only [enoughFuel, List.length_append, List.length_replicate]
  omega

section

variable [Alphabet]

theorem misses_variableOperand (h : ahead.head? ≠ some '#') :
    variableOperand.Misses n before ahead
      (errorAt (String.singleton '#') (Position.start.after before) ahead.head?) :=
  ((misses_char h).bind).map _

theorem misses_operand (some : piece ≠ [])
    (h : (farthestOf (groupOperand inner)
        [numberOperand, callOperand inner, boundOperand inner]).Misses n before ahead
      (errorAt x (Position.start.after (before ++ piece)) found?)) :
    (operand inner).Misses n before ahead
      (errorAt x (Position.start.after (before ++ piece)) found?) := by
  have start : position.Reads n before [] ahead (Position.start.after before) := reads_position
  rw [← operandError_behind some]
  refine start.bind_misses ?_
  rw [List.append_nil]
  exact h.mapError _

/-- Where no variable starts, a value of the host is missed no later than a reference. -/
theorem exists_misses_boundOperand {l : Int} (here : (before.length : Int) ≤ l)
    (noMark : ahead.head? ≠ some '#')
    (h : ∃ d, (referenceOperand inner).Misses n before ahead d ∧ Reaching.reach d ≤ l) :
    ∃ d, (boundOperand inner).Misses n before ahead d ∧ Reaching.reach d ≤ l := by
  have var : variableOperand.Answers n before ahead (fun _ _ _ => False)
      fun d => Reaching.reach d ≤ l :=
    .inr ⟨_, misses_variableOperand noMark, Int.le_trans (Int.le_of_eq (reach_errorAt ..)) here⟩
  have both : (boundOperand inner).Answers n before ahead (fun _ _ _ => False)
      fun d => Reaching.reach d ≤ l := by
    refine var.farthestOf fun q hq => ?_
    rw [List.mem_singleton.mp hq]
    exact .inr h
  rcases both with ⟨_, _, _, _, _, none⟩ | missed
  · exact none.elim
  · exact missed

/-! ## Brackets that are not closed -/

theorem misses_operand_parenthesis (stops : rest.head? ≠ some ' ') (enough : i ≤ n)
    (h : inner.Misses n (before ++ ('(' :: blanks i)) rest
      (errorAt x (Position.start.after (before ++ '(' :: piece)) found?)) :
    (operand inner).Misses n before ('(' :: (blanks i ++ rest))
      (errorAt x (Position.start.after (before ++ '(' :: piece)) found?) := by
  have group : (groupOperand inner).Misses n before ('(' :: (blanks i ++ rest))
      (errorAt x (Position.start.after (before ++ '(' :: piece)) found?) :=
    (misses_bracketed (reads_char '(') stops enough h).map _
  have number : numberOperand.Misses n before ('(' :: (blanks i ++ rest)) _ :=
    (misses_number (by rintro c ⟨⟩; decide)).map _
  have call : (callOperand inner).Misses n before ('(' :: (blanks i ++ rest)) _ :=
    misses_callOperand (by rintro c ⟨⟩; exact isNameChar_reserved (by decide))
  obtain ⟨d, bound, near⟩ : ∃ d,
      (boundOperand inner).Misses n before ('(' :: (blanks i ++ rest)) d ∧
        Reaching.reach d ≤ before.length :=
    exists_misses_boundOperand (Int.le_refl _) (by simp)
      ⟨_, misses_referenceOperand (by simp), Int.le_of_eq (reach_errorAt ..)⟩
  refine misses_operand (List.cons_ne_nil '(' piece)
    (misses_farthestOf group (.cons number (.cons call (.cons bound .nil))) List.mem_cons_self ?_)
  have behind : (before.length : Int) < (before ++ '(' :: piece).length := by
    rw [List.length_append, List.length_cons]
    omega
  refine List.forall_mem_cons.mpr ⟨.inl rfl, ?_⟩
  simp only [List.forall_mem_cons, reach_errorAt]
  exact ⟨.inr behind, .inr behind, .inr (Int.lt_of_le_of_lt near behind), nofun⟩

theorem misses_operand_reference (stops : rest.head? ≠ some ' ') (enough : i ≤ n) (turns : 0 < n)
    (h : inner.Misses n (before ++ ('v' :: '[' :: blanks i)) rest
      (errorAt x (Position.start.after (before ++ 'v' :: '[' :: piece)) found?)) :
    (operand inner).Misses n before ('v' :: '[' :: (blanks i ++ rest))
      (errorAt x (Position.start.after (before ++ 'v' :: '[' :: piece)) found?) := by
  have behind : (before.length : Int) + 1 < (before ++ 'v' :: '[' :: piece).length := by
    rw [List.length_append, List.length_cons, List.length_cons]
    omega
  have group : (groupOperand inner).Misses n before ('v' :: '[' :: (blanks i ++ rest)) _ :=
    misses_groupOperand (by simp)
  have number : numberOperand.Misses n before ('v' :: '[' :: (blanks i ++ rest)) _ :=
    (misses_number (by rintro c ⟨⟩; decide)).map _
  -- the mark is read as a name, behind which a parenthesis is missing
  have call : (callOperand inner).Misses n before ('v' :: '[' :: (blanks i ++ rest)) _ :=
    misses_callOperand_reference turns
  have bound : (boundOperand inner).Misses n before ('v' :: '[' :: (blanks i ++ rest))
      (errorAt x (Position.start.after (before ++ 'v' :: '[' :: piece)) found?) := by
    have mark : ((char 'v').seqRight (char '[')).Reads n before (['v'] ++ ['['])
        (blanks i ++ rest) '[' := (reads_char 'v').seqRight (reads_char '[')
    have reference : (referenceOperand inner).Misses n before
        ('v' :: '[' :: (blanks i ++ rest)) _ := (misses_bracketed mark stops enough h).map _
    refine misses_farthestOf (misses_variableOperand (by simp)) (.cons reference .nil)
      (List.mem_cons_of_mem _ List.mem_cons_self) ?_
    simp only [List.forall_mem_cons, reach_errorAt]
    exact ⟨.inr (by omega), .inl trivial, nofun⟩
  refine misses_operand (List.cons_ne_nil 'v' ('[' :: piece))
    (misses_farthestOf group (.cons number (.cons call (.cons bound .nil))) (by simp) ?_)
  simp only [List.forall_mem_cons, reach_errorAt]
  have name : ((before ++ ['v']).length : Int) = before.length + 1 := by simp
  exact ⟨.inr (by omega), .inr (by omega), .inr (name ▸ behind), .inl trivial, nofun⟩

theorem misses_operand_call {f : List Char} (hf : IsFunctionName f)
    (stops : rest.head? ≠ some ' ') (enough : (f ++ '(' :: (blanks i ++ rest)).length ≤ n)
    (noClose : rest.head? ≠ some ')')
    (h : inner.Fails n (before ++ f ++ '(' :: blanks i) rest) :
    (operand inner).Misses n before (f ++ '(' :: (blanks i ++ rest))
      (errorAt (String.singleton ')') (Position.start.after (before ++ (f ++ '(' :: blanks i)))
        rest.head?) := by
  simp only [List.length_append, List.length_cons, List.length_replicate] at enough
  have called : name.Reads n before f ('(' :: (blanks i ++ rest)) (String.ofList f) := by
    refine reads_name hf.1 ?_ (by omega)
    rintro c ⟨⟩
    exact isNameChar_reserved (by decide)
  have call : (callOperand inner).Misses n before (f ++ '(' :: (blanks i ++ rest))
      (errorAt (String.singleton ')') (Position.start.after (before ++ (f ++ '(' :: blanks i)))
        rest.head?) := by
    rw [← List.append_assoc]
    exact (called.bind_misses ((misses_arguments stops (by omega) noClose h).map _)).map _
  obtain ⟨c, f, rfl⟩ := List.exists_cons_of_ne_nil hf.1.1
  have plain : ∀ d ∈ reserved, c ≠ d :=
    fun d hd => ne_of_isNameChar (hf.1.2 c List.mem_cons_self) hd
  have group : (groupOperand inner).Misses n before (c :: f ++ '(' :: (blanks i ++ rest)) _ :=
    misses_groupOperand (by simpa using plain '(' (by decide))
  have noNumber : ∀ d ∈ (c :: f ++ '(' :: (blanks i ++ rest)).head?,
      d.isDigit = false ∧ d ≠ '.' ∧ d ≠ '+' ∧ d ≠ '-' := by
    rintro d ⟨⟩
    exact ⟨hf.2 c rfl, plain '.' (by decide), plain '+' (by decide), plain '-' (by decide)⟩
  have number : numberOperand.Misses n before (c :: f ++ '(' :: (blanks i ++ rest)) _ :=
    (misses_number noNumber).map _
  -- the bracket of a reference is not part of a name
  have noMark : ¬ ['v', '['] <+: c :: f ++ '(' :: (blanks i ++ rest) := by
    rintro ⟨tail, same⟩
    cases f with
    | nil => simp at same
    | cons d f =>
      obtain rfl : '[' = d := (List.cons.inj (List.cons.inj same).2).1
      exact ne_of_isNameChar (hf.1.2 '[' (by simp)) (by decide) rfl
  obtain ⟨d, bound, near⟩ : ∃ d, (boundOperand inner).Misses n before
      (c :: f ++ '(' :: (blanks i ++ rest)) d ∧ Reaching.reach d ≤ (before.length : Int) + 1 :=
    exists_misses_boundOperand (by omega) (by simpa using plain '#' (by decide))
      (exists_misses_referenceOperand noMark)
  refine misses_operand (by simp)
    (misses_farthestOf group (.cons number (.cons call (.cons bound .nil))) (by simp) ?_)
  have behind : (before.length : Int) + 1 <
      (before ++ (c :: f ++ '(' :: blanks i)).length := by
    simp only [List.length_append, List.length_cons]
    omega
  simp only [List.forall_mem_cons, reach_errorAt]
  exact ⟨.inr (by omega), .inr (by omega), .inl trivial, .inr (by omega), nofun⟩

/-! ## Behind more text -/

/-- An expression that breaks off breaks off behind more text, too, and with more fuel. -/
theorem misses_behind {done : List Char} (front : List Char)
    (h : expression.Misses n done rest
      (errorAt x (Position.start.after (done ++ rest)) none))
    (deep : n ≤ depth) (more : n ≤ m) :
    (expressionAt depth).Misses m (front ++ done) rest
      (errorAt x (Position.start.after (front ++ (done ++ rest))) none) := by
  have stop := Position.moved_after front done rest
  have last := Position.moved_after front (done ++ rest) []
  rw [List.append_nil] at last
  have run := relocates_expression front (done ++ rest) n _ _ stop
  have deeper := extends_expressionAt deep more (front ++ (done ++ rest))
    (Position.start.after (front ++ done))
  change (expression.parse n _ _).Extends _ at deeper
  rw [h] at run
  generalize expression.parse n (front ++ (done ++ rest)) (Position.start.after (front ++ done)) =
    reply at run deeper
  cases run with
  | failure he hq =>
    rw [Misses, List.append_assoc, deeper.of_failure, eq_errorAt_of_moved he last,
      (hq.eq_iff stop).mp rfl]

theorem misses_source {text : List Char} {e : TextError} (solid : text.head? ≠ some ' ')
    (h : (operand (expressionAt (text.length + 1))).Misses (enoughFuel text) [] text e) :
    source.run (enoughFuel text) text = .failure e text .start := by
  have level : expression.Misses (enoughFuel text) [] text e := Misses.bind h
  have padding : spaces.Reads (enoughFuel text) [] (blanks 0) text (blanks 0) :=
    reads_spaces solid (Nat.zero_le _)
  have leading : (spaces.seqRight expression).Misses (enoughFuel text) [] text e :=
    padding.bind_misses level
  exact (leading.bind.bind).parse_whole

/-- A text that breaks off does so in the expression behind its leading spaces. -/
theorem unfinished_expression {text : List Char}
    (failed : source.run (enoughFuel text) text =
      .failure (errorAt x (Position.start.after text) none) text .start) :
    ∃ i rest, text = blanks i ++ rest ∧ rest.head? ≠ some ' ' ∧
      expression.Misses (enoughFuel text) (blanks i) rest
        (errorAt x (Position.start.after text) none) := by
  have enough : text.length < enoughFuel text := lt_enoughFuel text
  generalize enoughFuel text = n at failed enough ⊢
  have spaces_answer (before ahead : List Char) (h : ahead.length ≤ text.length) :
      spaces.Answers n before ahead
        (fun s rest _ => (∃ i, s = blanks i) ∧ rest.head? ≠ some ' ') fun _ => False :=
    answers_spaces (Nat.le_trans h (Nat.le_of_lt enough))
  obtain ⟨_, rest, v, rfl, leading, ⟨i, rfl⟩, stops⟩ | ⟨_, _, none⟩ :=
    spaces_answer [] text (Nat.le_refl _)
  case inr => exact none.elim
  refine ⟨i, rest, rfl, stops, ?_⟩
  have inside : rest.length ≤ (blanks i ++ rest).length := rest_le rfl (Nat.le_refl _)
  rcases sound_expression (blanks i) rest (Nat.lt_of_le_of_lt inside enough) with
    ⟨s, rest', e, rfl, reads, -⟩ | ⟨error, misses, -⟩
  case inr =>
    have whole : source.Misses n [] (blanks i ++ rest) error :=
      ((leading.bind_misses misses).bind).bind
    have same := failed.symm.trans whole.parse_whole
    injection same with same
    rwa [same]
  case inl =>
    obtain ⟨b, ahead, v, rfl, trailing, -⟩ | ⟨_, _, none⟩ :=
      spaces_answer (blanks i ++ s) rest' (Nat.le_trans (rest_le rfl (Nat.le_refl _)) inside)
    case inr => exact none.elim
    have padded := (leading.seqRight reads).seqLeft trailing
    -- behind a whole expression the text ends, or something else was found than its end
    cases ahead with
    | nil =>
      have whole := (padded.seqLeft reads_endOfText).parse_whole
      simp only [List.append_assoc, List.append_nil] at whole failed
      cases failed.symm.trans whole
    | cons c ahead =>
      have ending : endOfText.Misses n ([] ++ (blanks i ++ s ++ b)) (c :: ahead) _ :=
        misses_endOfText c
      have whole : source.Misses n [] (blanks i ++ s ++ b ++ c :: ahead) _ :=
        padded.bind_misses (ending.map _)
      have stopped := whole.parse_whole
      simp only [List.append_assoc] at stopped failed
      have same := failed.symm.trans stopped
      injection same with same
      exact absurd (congrArg TextError.actual same).symm (singleton_ne_endMark c)

/-! ## Texts that break off -/

/-- The whole text is read, and breaks off where `x` was expected. -/
def BreaksOff (text : List Char) (x : String) : Prop :=
  source.run (enoughFuel text) text =
    .failure (errorAt x (Position.start.after text) none) text .start

theorem BreaksOff.parenthesis {text : List Char} (h : BreaksOff text x) :
    BreaksOff ('(' :: text) x := by
  obtain ⟨i, rest, rfl, stops, misses⟩ := unfinished_expression h
  have inside : (expressionAt (('(' :: (blanks i ++ rest)).length + 1)).Misses
      (enoughFuel ('(' :: (blanks i ++ rest))) ('(' :: blanks i) rest
      (errorAt x (Position.start.after ('(' :: (blanks i ++ rest))) none) :=
    misses_behind ['('] misses (Nat.le_refl _) (Nat.le_succ _)
  exact misses_source (by simp)
    (misses_operand_parenthesis stops (blanks_le_enoughFuel ['(']) inside)

theorem BreaksOff.reference {text : List Char} (h : BreaksOff text x) :
    BreaksOff ('v' :: '[' :: text) x := by
  obtain ⟨i, rest, rfl, stops, misses⟩ := unfinished_expression h
  have inside : (expressionAt (('v' :: '[' :: (blanks i ++ rest)).length + 1)).Misses
      (enoughFuel ('v' :: '[' :: (blanks i ++ rest))) ('v' :: '[' :: blanks i) rest
      (errorAt x (Position.start.after ('v' :: '[' :: (blanks i ++ rest))) none) :=
    misses_behind ['v', '['] misses (Nat.le_succ _) (Nat.le_add_right _ 2)
  exact misses_source (by simp)
    (misses_operand_reference stops (blanks_le_enoughFuel ['v', '[']) (Nat.succ_pos _) inside)

/-- A call asks for its closing parenthesis where the argument starts that breaks off. -/
theorem BreaksOff.call {text f : List Char} (h : BreaksOff text x) (viable : Viable text)
    (hf : IsFunctionName f) :
    ∃ i rest, text = blanks i ++ rest ∧ rest.head? ≠ some ' ' ∧
      source.run (enoughFuel (f ++ '(' :: text)) (f ++ '(' :: text) =
        .failure (errorAt (String.singleton ')') (Position.start.after (f ++ '(' :: blanks i))
          rest.head?) (f ++ '(' :: text) .start := by
  obtain ⟨i, rest, rfl, stops, misses⟩ := unfinished_expression h
  refine ⟨i, rest, rfl, stops, ?_⟩
  have noClose : rest.head? ≠ some ')' := by
    intro close
    obtain ⟨rest, rfl⟩ := List.head?_eq_some_iff.mp close
    exact not_viable_close i rest viable
  have solid : (f ++ '(' :: (blanks i ++ rest)).head? ≠ some ' ' := by
    obtain ⟨c, head, named⟩ := hf.1.head
    rw [head]
    rintro ⟨⟩
    rw [isNameChar_reserved (by decide)] at named
    cases named
  have longer : enoughFuel (blanks i ++ rest) ≤ (f ++ '(' :: (blanks i ++ rest)).length + 1 := by
    simp only [enoughFuel, List.length_append, List.length_cons]
    omega
  have inside : (expressionAt ((f ++ '(' :: (blanks i ++ rest)).length + 1)).Misses
      (enoughFuel (f ++ '(' :: (blanks i ++ rest))) (f ++ ['('] ++ blanks i) rest _ :=
    misses_behind (f ++ ['(']) misses longer (Nat.le_trans longer (Nat.le_succ _))
  rw [List.append_assoc, List.singleton_append] at inside
  exact misses_source solid
    (misses_operand_call hf stops (Nat.le_add_right _ 2) noClose ⟨_, inside⟩)

/-! ## Sources in brackets -/

/-- An error at the end of a text is one of a text that breaks off. -/
theorem breaksOff_of_error {t : String} {err : SyntaxError} (h : Expr.read? t = .error err)
    (atEnd : err.got? = some "end of input") :
    ∃ x, Viable t.toList ∧ BreaksOff t.toList x ∧
      err = .ofFailure (errorAt x (Position.start.after t.toList) none) .start t.toList := by
  obtain ⟨front, ahead, x, split, expects, failed, rfl⟩ := error_place h
  cases ahead with
  | nil =>
    rw [List.append_nil] at split
    subst split
    exact ⟨x, expects.viable, failed, rfl⟩
  | cons c ahead =>
    have found : some (foundText (errorAt x (Position.start.after front) (some c)).actual) =
      some "end of input" := atEnd
    rw [foundText_errorAt] at found
    exact absurd (Option.some.inj found) (quoted_ne_endOfInput c)

theorem BreaksOff.error {t : String} (h : BreaksOff t.toList x) :
    ∃ err, Expr.read? t = .error err ∧ err.got? = some "end of input" ∧
      err.location = t.toList.length ∧ err.expected = [expectedText x] :=
  ⟨_, read?_of_run h, rfl, Position.index_start_after t.toList, rfl⟩

/-- A text that breaks off also breaks off at its end, with the same expectation, behind an opening
parenthesis and behind the mark of a reference. As the first argument of a call it does not: there
the call is said to miss its closing parenthesis in the place where the text starts, behind its
spaces, and that is the end only when there is nothing else. -/
theorem unfinished_in_brackets {t : String} {err : SyntaxError} (h : Expr.read? t = .error err)
    (atEnd : err.got? = some "end of input") :
    (∀ bracket, bracket = "(" ∨ bracket = "v[" → ∃ err', Expr.read? (bracket ++ t) = .error err' ∧
      err'.got? = some "end of input" ∧ err'.location = (bracket ++ t).toList.length ∧
      err'.expected = err.expected) ∧
    ∀ f : String, IsFunctionName f.toList → ∃ err' i rest,
      t.toList = blanks i ++ rest ∧ rest.head? ≠ some ' ' ∧
      Expr.read? (f ++ "(" ++ t) = .error err' ∧ err'.expected = ["')'"] ∧
      err'.location = (f.toList.length + 1 + i : Nat) ∧
      (err'.got? = some "end of input" ∧ err'.location = (f ++ "(" ++ t).toList.length ↔
        rest = []) := by
  obtain ⟨x, viable, breaks, rfl⟩ := breaksOff_of_error h atEnd
  constructor
  · rintro bracket (rfl | rfl)
    · have behind : BreaksOff ("(" ++ t).toList x := by
        rw [String.toList_append]
        exact breaks.parenthesis
      exact behind.error
    · have behind : BreaksOff ("v[" ++ t).toList x := by
        rw [String.toList_append]
        exact breaks.reference
      exact behind.error
  · intro f hf
    obtain ⟨i, rest, split, stops, failed⟩ := breaks.call viable hf
    have text : (f ++ "(" ++ t).toList = f.toList ++ '(' :: t.toList := by
      rw [String.toList_append, String.toList_append, List.append_assoc]
      rfl
    rw [← text] at failed
    have close : expectedText (String.singleton ')') = "')'" := by decide +kernel
    have place : (Position.start.after (f.toList ++ '(' :: blanks i)).index =
        (f.toList.length + 1 + i : Nat) := by
      rw [Position.index_start_after, List.length_append, List.length_cons, List.length_replicate]
      omega
    refine ⟨_, i, rest, split, stops, read?_of_run failed, congrArg (fun x => [x]) close, place, ?_⟩
    constructor
    · rintro ⟨found, -⟩
      have actual := (foundText_errorAt _ _ _).symm.trans (Option.some.inj found)
      cases rest with
      | nil => rfl
      | cons c rest => exact absurd actual (quoted_ne_endOfInput c)
    · rintro rfl
      refine ⟨rfl, place.trans ?_⟩
      rw [text, split]
      simp only [List.append_nil, List.length_append, List.length_cons, List.length_replicate]
      omega

end

/-- A sum without its second term, in a parenthesis and as an argument. -/
theorem unfinished_in_brackets_sum :
    ∃ err, Expr.read? "1 +" = .error err ∧ err.got? = some "end of input" ∧
      (∃ err', Expr.read? "(1 +" = .error err' ∧ err'.got? = some "end of input" ∧
        err'.location = 4) ∧
      ∃ err', Expr.read? "abs(1 +" = .error err' ∧ err'.expected = ["')'"] := by
  obtain ⟨brackets, calls⟩ := unfinished_in_brackets (t := "1 +") rfl rfl
  obtain ⟨err, read, found, place, -⟩ := brackets "(" (.inl rfl)
  have function : IsFunctionName "abs".toList :=
    ⟨⟨by decide, List.all_eq_true.mp (by decide +kernel)⟩, by rintro c ⟨⟩; decide⟩
  obtain ⟨err', -, -, -, -, read', expected, -⟩ := calls "abs" function
  exact ⟨_, rfl, rfl, ⟨err, read, found, place⟩, err', read', expected⟩

/-- A sum without its second term breaks off at its end, but as an argument it is an error at its
start. -/
theorem unfinished_argument_lost :
    (∃ err, Expr.read? "1+" = .error err ∧ err.got? = some "end of input" ∧ err.location = 2) ∧
      IsFunctionName "f".toList ∧
      ∃ err, Expr.read? "f(1+" = .error err ∧ err.got? = some "'1'" ∧ err.location = 2 ∧
        err.location ≠ "f(1+".toList.length :=
  have function : IsFunctionName "f".toList :=
    ⟨⟨by decide, List.all_eq_true.mp (by decide +kernel)⟩, by rintro c ⟨⟩; decide⟩
  ⟨⟨_, rfl, rfl, rfl⟩, function, _, rfl, rfl, rfl, by decide⟩

end Reckoner.Grammar
