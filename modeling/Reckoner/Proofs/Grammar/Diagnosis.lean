import Reckoner.Proofs.Grammar.Viability
import Reckoner.Proofs.Parser.Blame
import Reckoner.Text.Letter

/-!
# Errors tell the truth

An error that is reported for a text names a place such that what stands before it is the front of
a source, and what was expected there goes on with that source. Where an expression may stand, each
rule has only such errors, but for those at its very start: there an operand relabels what its
alternatives expected. The bracket of a reference is never asked for, since behind `v` a call gets
as far and comes first. Errors among the arguments of a call are dropped, as the arguments end
there.
-/

namespace Reckoner.Grammar

open Reckoner.Parser Reckoner.TextParser

variable {n bound : Nat} {before ahead a rest : List Char}

section

variable [Alphabet]

/-- What was expected where the error was met may stand there. -/
abbrev Truthful (before ahead : List Char) : TextError → Prop :=
  Met before ahead fun piece expected => Expects (before ++ piece) expected

/-- The error is truthful unless it was met at the start. -/
abbrev TruthfulBeyond (before ahead : List Char) : TextError → Prop :=
  Met before ahead fun piece expected => piece = [] ∨ Expects (before ++ piece) expected

theorem Truthful.beyond {e : TextError} (h : Truthful before ahead e) :
    TruthfulBeyond before ahead e :=
  h.mono fun _ _ _ _ => .inr

/-- An error of what stands behind `a`, seen from before `a`. -/
theorem Truthful.behind {e : TextError} (h : Truthful (before ++ a) rest e)
    (split : ahead = a ++ rest) : Truthful before ahead e := by
  subst split
  refine Met.behind (h.mono fun piece _ _ _ expects => ?_)
  rwa [← List.append_assoc]

end

theorem blames_char_behind {ok : List Char → String → Prop} {c : Char} (split : ahead = a ++ rest)
    (h : ok a (String.singleton c)) :
    (char c).Blames n (before ++ a) rest (Met before ahead ok) := by
  subst split
  have here : (char c).Blames n (before ++ a) rest
      (Met (before ++ a) rest fun piece x => ok (a ++ piece) x) :=
    blames_char c (by rwa [List.append_nil])
  exact here.mono fun _ he => he.behind

/-! ## Numbers and names -/

theorem blames_digits : digits.Blames n before ahead (Met before ahead fun piece _ => piece = []) :=
  Blames.many1 ((blames_satisfy _ _).mono fun _ he => he ▸ met_here rfl)

theorem blames_fraction :
    fraction.Blames n before ahead
      (Met before ahead fun piece _ => piece = [] ∨ piece = ['.']) := by
  refine Blames.map _ ((blames_char '.' (.inl rfl)).bind (answers_char '.')
    fun a rest _ split ha => ?_)
  subst split ha
  refine blames_digits.mono fun e he => Met.behind (he.mono ?_)
  rintro piece - - - rfl
  exact .inr rfl

theorem blames_numeral (enough : ahead.length ≤ n) :
    numeral.Blames n before ahead (Met before ahead fun piece _ => piece = [] ∨ piece = ['.']) :=
  (blames_orElse _ blames_fraction).bind (answers_mantissa enough) fun _ _ _ _ _ =>
    (blames_orDefault _ _).map _

section

variable [Alphabet]

/-- A number that is begun goes on with a digit. -/
theorem blames_number (h : Opens before) (enough : ahead.length ≤ n) :
    number.Blames n before ahead (Truthful before ahead) := by
  have begun : (sign.bind fun bit => magnitude.map fun value => bit * value).Blames n before ahead
      (Met before ahead fun piece _ =>
        ∃ sg negative, Sign sg negative ∧ (piece = sg ∨ piece = sg ++ ['.'])) := by
    refine (answers_sign enough).blames_bind fun a rest _ split ha => ?_
    obtain ⟨negative, hs, -⟩ := ha
    have later := rest_le split enough
    subst split
    refine Blames.map _ (Blames.map _ ((blames_numeral later).mono fun e he => ?_))
    refine Met.behind (he.mono ?_)
    rintro piece - - - (rfl | rfl)
    · exact ⟨a, negative, hs, .inl (List.append_nil a)⟩
    · exact ⟨a, negative, hs, .inr rfl⟩
  refine Blames.mapError _ (begun.mono fun e he => he.expecting ?_)
  rintro piece - ⟨sg, negative, hs, rfl | rfl⟩
  · exact h.expects_number hs
  · exact h.expects_fraction hs

/-- A name fails only at its start, where no character of a name stands. -/
theorem blames_name (enough : ahead.length ≤ n) :
    name.Blames n before ahead fun e =>
      Met before ahead (fun piece x => piece = [] ∧ x = "name") e ∧
        ∀ c ∈ ahead.head?, isNameChar c = false := by
  have start : name.Blames n before ahead
      (Met before ahead fun piece x => piece = [] ∧ x = "name") := by
    have nameChar : (alphanumeric.orElse (char '_')).Blames n before ahead
        (Met before ahead fun piece _ => piece = []) := blames_orElse _ (blames_char '_' rfl)
    refine Blames.mapError _ (Blames.map _ (nameChar.many1.mono fun e he => he.expecting ?_))
    exact fun piece _ hp => ⟨hp, rfl⟩
  refine start.and (Blames.mapError _ (Blames.map _ ?_))
  exact (readsChar_nameChar.answers_many1 enough).blames

theorem blames_variableOperand (h : Opens before) (enough : ahead.length ≤ n) :
    variableOperand.Blames n before ahead (TruthfulBeyond before ahead) := by
  refine Blames.map _ ((blames_char '#' (.inl rfl)).bind (answers_char '#')
    fun a rest _ split ha => ?_)
  have later := rest_le split enough
  subst split ha
  refine (blames_name later).mono fun e he => Met.behind (he.1.mono ?_)
  rintro piece - - - ⟨rfl, rfl⟩
  exact .inr h.expects_name

end

/-! ## Brackets -/

section Bracketed

variable {α β : Type} {opening : TextParser β} {body : TextParser α} {front : List Char}
  {close : Char} {good : List Char → α → Prop} {bad : TextError → Prop}

/-- A bracketed body fails in its opening, in the body, or where the closing bracket is missing. -/
theorem blames_bracketed (enough : ahead.length ≤ n)
    (hopen : opening.Answers n before ahead (fun s _ _ => s = front) fun _ => True)
    (hbody : ∀ before' ahead', front.length + ahead'.length ≤ ahead.length →
      body.Answers n before' ahead' (fun s _ v => good s v) fun _ => True)
    (blamesOpen : opening.Blames n before ahead bad)
    (blamesBody : ∀ i rest, ahead = front ++ blanks i ++ rest →
      body.Blames n (before ++ (front ++ blanks i)) rest bad)
    (blamesClose : ∀ i j t v rest, good t v →
      ahead = front ++ (blanks i ++ (t ++ blanks j)) ++ rest →
        (char close).Blames n (before ++ (front ++ (blanks i ++ (t ++ blanks j)))) rest bad) :
    ((((opening.seqRight spaces).seqRight body).seqLeft spaces).seqLeft (char close)).Blames n
      before ahead bad := by
  have opened : (opening.seqRight spaces).Blames n before ahead bad :=
    blamesOpen.bind hopen fun a rest _ split _ => (answers_spaces (rest_le split enough)).blames
  have read : ((opening.seqRight spaces).seqRight body).Blames n before ahead bad := by
    refine opened.bind (answers_opened enough hopen) fun a rest _ split ha => ?_
    obtain ⟨i, rfl⟩ := ha
    exact blamesBody i rest split
  have padded : (((opening.seqRight spaces).seqRight body).seqLeft spaces).Blames n before ahead
      bad :=
    read.bind (answers_openedBody enough hopen hbody) fun a rest _ split _ =>
      Blames.map _ (answers_spaces (rest_le split enough)).blames
  refine padded.bind (answers_paddedBody enough hopen hbody) fun a rest v split ha => ?_
  obtain ⟨i, j, t, rfl, ht⟩ := ha
  exact Blames.map _ (blamesClose i j t v rest ht split)

end Bracketed

/-! ## Operands -/

variable {inner : TextParser Expr}

section

variable [Alphabet]

/-- The errors of `inner` are truthful before texts shorter than `bound`, where an expression may
stand. -/
def Honest (inner : TextParser Expr) (n bound : Nat) : Prop :=
  ∀ before ahead, ahead.length < bound → Opens before →
    inner.Blames n before ahead (Truthful before ahead)

/-- An expression in brackets, at a place where its brackets make an operand. -/
theorem blames_bracketedExpression {β : Type} {opening : TextParser β} {front : List Char}
    {close : Char} {ok : List Char → String → Prop} (hi : Sound inner n bound)
    (honest : Honest inner n bound) (short : ahead.length ≤ bound) (enough : ahead.length ≤ n)
    (hopen : opening.Answers n before ahead (fun s _ _ => s = front) fun _ => True)
    (some : front ≠ []) (blamesOpen : opening.Blames n before ahead (Met before ahead ok))
    (opens : ∀ i, Opens (before ++ (front ++ blanks i)))
    (closes : ∀ i j t e, Expression t e →
      Expects (before ++ (front ++ (blanks i ++ (t ++ blanks j)))) (String.singleton close))
    (hok : ∀ piece x, Expects (before ++ piece) x → ok piece x) :
    ((((opening.seqRight spaces).seqRight inner).seqLeft spaces).seqLeft (char close)).Blames n
      before ahead (Met before ahead ok) := by
  have pos : 0 < front.length := List.length_pos_iff.mpr some
  have body : ∀ before' ahead', front.length + ahead'.length ≤ ahead.length →
      inner.Answers n before' ahead' (fun s _ e => Expression s e) fun _ => True :=
    fun before' ahead' shorter => hi before' ahead' (by omega)
  refine blames_bracketed enough hopen body blamesOpen ?_ ?_
  · intro i rest split
    have inside : rest.length < bound := by
      rw [split, List.length_append, List.length_append] at short
      omega
    exact (honest _ rest inside (opens i)).mono fun e he =>
      (he.behind split).mono fun piece _ x _ expects => hok piece x expects
  · intro i j t e rest ht split
    exact blames_char_behind split (hok _ _ (closes i j t e ht))

theorem blames_groupOperand (hi : Sound inner n bound) (honest : Honest inner n bound)
    (h : Opens before) (short : ahead.length ≤ bound) (enough : ahead.length ≤ n) :
    (groupOperand inner).Blames n before ahead (TruthfulBeyond before ahead) := by
  refine Blames.map _ (blames_bracketedExpression hi honest short enough (answers_char '(')
    (List.cons_ne_nil _ _) (blames_char '(' (.inl rfl)) h.group ?_ fun _ _ => .inr)
  intro i j t e ht
  refine h.expects_close (.inl rfl) (a := e.group) ?_
  simpa using Operand.group i j ht

/-- The bracket of a reference may be missing behind its mark. -/
theorem blames_referenceOperand (hi : Sound inner n bound) (honest : Honest inner n bound)
    (h : Opens before) (short : ahead.length ≤ bound) (enough : ahead.length ≤ n) :
    (referenceOperand inner).Blames n before ahead (Met before ahead fun piece x =>
      piece = ['v'] ∨ piece = [] ∨ Expects (before ++ piece) x) := by
  have mark : ((char 'v').seqRight (char '[')).Blames n before ahead
      (Met before ahead fun piece x => piece = ['v'] ∨ piece = [] ∨ Expects (before ++ piece) x) :=
    (blames_char 'v' (.inr (.inl rfl))).bind (answers_char 'v') fun a rest _ split ha =>
      blames_char_behind split (.inl ha)
  refine Blames.map _ (blames_bracketedExpression hi honest short enough answers_mark
    (List.cons_ne_nil _ _) mark h.reference ?_ fun _ _ expects => .inr (.inr expects))
  intro i j t e ht
  refine h.expects_close (.inr rfl) (a := .external e) ?_
  simpa using Operand.reference i j ht

/-- Arguments fail at their parentheses: what is between them may be empty. -/
theorem blames_arguments {f : List Char} (hi : Sound inner n bound) (h : Opens before)
    (hf : IsFunctionName f) (short : rest.length ≤ bound) (enough : rest.length ≤ n) :
    (arguments inner).Blames n (before ++ f) rest
      (Met before (f ++ rest) fun piece x => piece ≠ [] ∧ Expects (before ++ piece) x) := by
  have some (s : List Char) : f ++ s ≠ [] := List.append_ne_nil_of_left_ne_nil hf.1.1 s
  have body : ∀ before' ahead', ['('].length + ahead'.length ≤ rest.length →
      (sepBy inner ((spaces.seqLeft (char ',')).seqLeft spaces)).Answers n before' ahead'
        (fun s _ es => Arguments Expression s es) fun _ => True := by
    intro before' ahead' shorter
    rw [List.length_singleton] at shorter
    exact answers_sepBy hi (by omega) (by omega)
  refine blames_bracketed enough (answers_char '(') body
    (blames_char_behind rfl ⟨hf.1.1, h.expects_arguments hf⟩) ?_ ?_
  · exact fun _ _ _ => blames_orElse _ (blames_pure [])
  · intro i j t es rest' ht split
    subst split
    rw [List.append_assoc]
    refine blames_char_behind (List.append_assoc ..).symm ⟨some _, ?_⟩
    refine h.expects_close (.inl rfl) (a := .call (String.ofList f) es) ?_
    simpa using Operand.call i j hf ht

theorem blames_callOperand (hi : Sound inner n bound) (h : Opens before)
    (short : ahead.length ≤ bound) (enough : ahead.length ≤ n) (noDigit : NoDigit ahead) :
    (callOperand inner).Blames n before ahead (Met before ahead fun piece x =>
      (piece = [] ∧ ∀ c ∈ ahead.head?, isNameChar c = false) ∨
        piece ≠ [] ∧ Expects (before ++ piece) x) := by
  refine Blames.map _ (Blames.bind ?_ (answers_name enough)
    fun f rest _ split hf => Blames.map _ ?_)
  · exact (blames_name enough).mono fun e he => he.1.mono fun _ _ _ _ hp => .inl ⟨hp.1, he.2⟩
  · obtain ⟨hf, -⟩ := hf
    have function : IsFunctionName f := hf.isFunctionName (split ▸ noDigit)
    have later := blames_arguments hi h function (rest_le split short) (rest_le split enough)
    rw [split]
    exact later.mono fun e he => he.mono fun _ _ _ _ => .inr

/-- Behind the mark of a reference a call gets as far as the reference, and its error is kept. -/
theorem blames_namedOperand (hi : Sound inner n bound) (honest : Honest inner n bound)
    (h : Opens before) (short : ahead.length ≤ bound) (enough : ahead.length ≤ n)
    (noDigit : NoDigit ahead) :
    (farthestOf (callOperand inner) [boundOperand inner]).Blames n before ahead
      (TruthfulBeyond before ahead) := by
  have boundFails : (boundOperand inner).Blames n before ahead (Met before ahead fun piece x =>
      piece = ['v'] ∨ piece = [] ∨ Expects (before ++ piece) x) := by
    refine (blames_variableOperand h enough).farthestOf fun e he => Blames.farthestOf_nil ?_
    refine (blames_referenceOperand hi honest h short enough).mono fun later hl => ?_
    exact further_of_both (he.mono fun _ _ _ _ => .inr) hl
  refine (blames_callOperand hi h short enough noDigit).farthestOf fun e he => ?_
  refine Blames.farthestOf_nil (boundFails.mono fun later hl => ?_)
  have call : TruthfulBeyond before ahead e :=
    he.mono fun _ _ _ _ hp => hp.imp And.left And.right
  obtain ⟨piece, found, x, split, rfl, rfl | hx⟩ := hl
  -- the mark is part of the name of a call, so the call does not fail before the end of the mark
  · have named : ∀ piece x, ((piece = [] ∧ ∀ c ∈ ahead.head?, isNameChar c = false) ∨
        piece ≠ [] ∧ Expects (before ++ piece) x) → 1 ≤ piece.length := by
      subst split
      rintro piece x (⟨-, none⟩ | ⟨some, -⟩)
      · have mark : isNameChar 'v' = true := isNameChar_of_isAlpha rfl
        rw [none 'v' rfl] at mark
        cases mark
      · exact List.length_pos_iff.mpr some
    rw [further_of_le]
    · exact call
    · rw [reach_errorAt, List.length_append]
      exact he.le_reach named
  · exact further_of_both call ⟨piece, found, x, split, rfl, hx⟩

/-- An operand relabels the errors of its start. -/
theorem TruthfulBeyond.operandError {e : TextError} (he : TruthfulBeyond before ahead e)
    (h : Opens before) :
    Truthful before ahead (operandError (Position.start.after before) e) := by
  obtain ⟨piece, found, x, split, rfl, hx⟩ := he
  by_cases start : piece = []
  · subst start
    refine ⟨[], found, operandExpected, split, ?_, ?_⟩
    · rw [Grammar.operandError, List.append_nil]
      exact if_pos rfl
    · show Expects (before ++ []) operandExpected
      rw [List.append_nil]
      exact h.expects_operand
  · refine ⟨piece, found, x, split, ?_, hx.resolve_left start⟩
    rw [Grammar.operandError]
    refine if_neg fun same => start ?_
    have index := congrArg Position.index (Option.some.inj same)
    rw [Position.index_start_after, Position.index_start_after, List.length_append] at index
    exact List.length_eq_zero_iff.mp (by omega)

theorem blames_operand (hi : Sound inner n bound) (honest : Honest inner n bound)
    (h : Opens before) (short : ahead.length ≤ bound) (enough : ahead.length ≤ n) :
    (operand inner).Blames n before ahead (Truthful before ahead) := by
  have number : numberOperand.Blames n before ahead fun e =>
      TruthfulBeyond before ahead e ∧ NoDigit ahead := by
    have truthful := (blames_number h enough).mono fun _ => Truthful.beyond
    exact Blames.map _ (truthful.and (answers_number enough).blames)
  have anyKind : (farthestOf (groupOperand inner)
      [numberOperand, callOperand inner, boundOperand inner]).Blames n before ahead
      (TruthfulBeyond before ahead) := by
    refine (blames_groupOperand hi honest h short enough).farthestOf fun e he => ?_
    refine number.farthestOf fun e' he' => ?_
    exact (blames_namedOperand hi honest h short enough he'.2).mono fun _ hl =>
      further_of_both he (further_of_both he'.1 hl)
  have start : position.Answers n before ahead
      (fun s _ v => s = [] ∧ v = Position.start.after before) (Truthful before ahead) :=
    .inl ⟨[], ahead, _, rfl, reads_position, rfl, rfl⟩
  refine start.blames_bind fun a rest v split ha => ?_
  obtain ⟨rfl, rfl⟩ := ha
  obtain rfl : ahead = rest := split
  rw [List.append_nil]
  exact Blames.mapError _ (anyKind.mono fun e he => he.operandError h)

/-! ## Expressions -/

/-- Behind an operand only the right-hand side of an operator fails. -/
theorem blames_continuation {s : List Char} {a : Expr} (honest : Honest inner n bound)
    (h : Opens before) (ha : Operand s a) (short : rest.length ≤ bound)
    (enough : rest.length ≤ n) :
    (continuation inner a).Blames n (before ++ s) rest (Truthful before (s ++ rest)) := by
  refine Blames.bind (blames_orDefault _ none) (answers_maybeOperator enough)
    fun d rest' found split hd => ?_
  rcases hd with ⟨rfl, rfl⟩ | ⟨o, i, rfl, rfl⟩
  · exact blames_pure a
  · have later := rest_le split enough
    refine Blames.map _ ((answers_spaces later).blames_bind fun b rest'' _ split' hb => ?_)
    obtain ⟨⟨j, rfl⟩, -⟩ := hb
    have inside : rest''.length < bound := by
      rw [split, split'] at short
      simp only [List.length_append, length_symbol] at short
      omega
    have opens := h.operation ha i j o
    have place : before ++ s ++ (blanks i ++ o.symbol.toList) ++ blanks j =
        before ++ (s ++ (blanks i ++ (o.symbol.toList ++ blanks j))) := by
      simp only [List.append_assoc]
    rw [place]
    refine (honest _ rest'' inside opens).mono fun e he => he.behind ?_
    simp only [split, split', List.append_assoc]

theorem blames_expressionLevel (hi : Sound inner n bound) (honest : Honest inner n bound)
    (h : Opens before) (short : ahead.length ≤ bound) (enough : ahead.length ≤ n) :
    (expressionLevel inner).Blames n before ahead (Truthful before ahead) := by
  refine (blames_operand hi honest h short enough).bind (answers_operand hi short enough)
    fun s rest a split ha => ?_
  have continues :=
    blames_continuation honest h ha (rest_le split short) (rest_le split enough)
  rwa [← split] at continues

theorem honest_expressionAt (depth : Nat) (h : depth ≤ n + 1) :
    Honest (expressionAt depth) n depth := by
  induction depth with
  | zero => exact fun _ _ short => absurd short (Nat.not_lt_zero _)
  | succ depth ih =>
    intro before ahead short opens
    have less : depth ≤ n + 1 := Nat.le_of_succ_le h
    have level : (expressionLevel (expressionAt depth)).Blames n before ahead
        (Truthful before ahead) :=
      blames_expressionLevel (sound_expressionAt depth less) (ih less) opens
        (Nat.le_of_lt_succ short) (Nat.le_of_lt_succ (Nat.lt_of_lt_of_le short h))
    exact level

theorem honest_expression : Honest expression n n := fun before ahead short opens =>
  honest_expressionAt (n := n) n (Nat.le_succ n) before ahead short opens

/-- Behind a whole expression the end of the text is expected. -/
theorem blames_source {text : List Char} (enough : text.length < n) :
    source.Blames n [] text (Truthful [] text) := by
  have leading : (spaces.seqRight expression).Blames n [] text (Truthful [] text) := by
    refine (answers_spaces (Nat.le_of_lt enough)).blames_bind fun a rest _ split ha => ?_
    obtain ⟨⟨i, rfl⟩, -⟩ := ha
    have short : rest.length < n := Nat.lt_of_le_of_lt (rest_le split (Nat.le_refl _)) enough
    exact (honest_expression _ rest short (opens_blanks i)).mono fun _ he => he.behind split
  have padded : ((spaces.seqRight expression).seqLeft spaces).Blames n [] text
      (Truthful [] text) := by
    refine leading.bind (answers_leading sound_expression enough) fun a rest _ split _ => ?_
    exact Blames.map _ (answers_spaces (rest_le split (Nat.le_of_lt enough))).blames
  refine padded.bind (answers_padded sound_expression enough) fun a rest e split ha => ?_
  have ending : endOfText.Blames n ([] ++ a) rest (Truthful ([] ++ a) rest) := by
    refine blames_endOfText (.endOfText (isSource_iff.mpr ⟨e, ?_⟩))
    rwa [List.append_nil]
  exact Blames.map _ (ending.mono fun _ he => he.behind split)

end

/-! ## Sources that are not read -/

/-- The end of the text is found at the end alone, and any character is shown in quotes. -/
theorem foundText_errorAt (expected : String) (place : Position) (found? : Option Char) :
    foundText (errorAt expected place found?).actual =
      found?.elim "end of input" fun c => "'" ++ String.singleton c ++ "'" := by
  cases found? with
  | none => rfl
  | some c => exact if_neg (singleton_ne_endMark c)

theorem quoted_ne_endOfInput (c : Char) : "'" ++ String.singleton c ++ "'" ≠ "end of input" := by
  intro same
  have letters := congrArg String.toList same
  simp at letters

/-- Where an error is located that was met behind one line, and what it says was found. -/
theorem fields_of_errorAt {front : List Char} (noBreak : '\n' ∉ front) (expected : String)
    (found? : Option Char) (text : List Char) {err : SyntaxError}
    (same : err =
      .ofFailure (errorAt expected (Position.start.after front) found?) .start text) :
    err.location = front.length ∧ err.line = 1 ∧ err.column = front.length + 1 ∧
      err.got? = some (found?.elim "end of input" fun c => "'" ++ String.singleton c ++ "'") := by
  subst same
  refine ⟨Position.index_start_after front, ?_, ?_, ?_⟩
  · show (Position.start.after front).row = 1
    rw [Position.after_row, PositionLemmas.count_of_noBreak noBreak]
    rfl
  · show (Position.start.after front).column = front.length + 1
    rw [Position.after_column_of_noBreak _ noBreak]
    exact Int.add_comm _ _
  · rw [← foundText_errorAt expected (Position.start.after front) found?]
    rfl

section

variable [Alphabet]

/-- Where a text that is not read went wrong: behind the front of a source, with what was expected
there. -/
theorem error_place {s : String} {err : SyntaxError} (h : Expr.read? s = .error err) :
    ∃ front ahead expected, s.toList = front ++ ahead ∧ Expects front expected ∧
      source.run (enoughFuel s.toList) s.toList =
        .failure (errorAt expected (Position.start.after front) ahead.head?) s.toList .start ∧
      err = .ofFailure (errorAt expected (Position.start.after front) ahead.head?) .start
        s.toList := by
  rcases run_source_cases s.toList with ⟨e, derived⟩ | ⟨e, failed⟩
  · rw [read?_of_source derived] at h
    exact nomatch h
  have same : err = .ofFailure e .start s.toList :=
    Except.error.inj (h.symm.trans (read?_of_run failed))
  obtain ⟨front, ahead, expected, split, rfl, expects⟩ :=
    (blames_source (lt_enoughFuel s.toList)).of_failure failed
  exact ⟨front, ahead, expected, split, expects, failed, same⟩

/-- A text that is not read gives an error at a place within it, on the first line. The text before
that place is the front of a source, which may go on with what the error expected, or is itself a
source when the end was expected. What was found is the character at the place, or the end. -/
theorem error_truthful {s : String} {err : SyntaxError} (h : Expr.read? s = .error err) :
    ∃ (e : TextError) (l : Nat),
      source.run (enoughFuel s.toList) s.toList = .failure e s.toList .start ∧
      err = .ofFailure e .start s.toList ∧
      Expects (s.toList.take l) e.expected ∧
      l ≤ s.toList.length ∧ err.location = l ∧ err.line = 1 ∧ err.column = l + 1 ∧
      (err.got? = some "end of input" ↔ l = s.toList.length) ∧
      ∀ c ∈ s.toList[l]?, err.got? = some ("'" ++ String.singleton c ++ "'") := by
  rcases run_source_cases s.toList with ⟨e, derived⟩ | ⟨e, failed⟩
  · rw [read?_of_source derived] at h
    exact nomatch h
  have same : err = .ofFailure e .start s.toList :=
    Except.error.inj (h.symm.trans (read?_of_run failed))
  obtain ⟨front, found, expected, split, rfl, expects⟩ :=
    (blames_source (lt_enoughFuel s.toList)).of_failure failed
  rw [List.nil_append] at expects
  -- what is viable is one line, so the index tells the column
  obtain ⟨location, line, column, got⟩ :=
    fields_of_errorAt expects.viable.noBreak expected found.head? s.toList same
  refine ⟨_, front.length, failed, same, ?_, ?_, location, line, column, ?_, ?_⟩
  · rw [split, List.take_left]
    exact expects
  · rw [split, List.length_append]
    exact Nat.le_add_right _ _
  · rw [got, split, List.length_append]
    cases found with
    | nil => simp
    | cons c found =>
      refine iff_of_false (fun he => quoted_ne_endOfInput c (Option.some.inj he)) ?_
      exact Nat.ne_of_lt (Nat.lt_add_of_pos_right (Nat.succ_pos found.length))
  · intro c hc
    rw [split, List.getElem?_append_right (Nat.le_refl _), Nat.sub_self, ← List.head?_eq_getElem?]
      at hc
    rw [got, Option.mem_def.mp hc]
    rfl

end

/-- A parenthesis that is not closed, and the end of the text where it is expected. -/
theorem error_truthful_unclosed :
    ∃ err : SyntaxError, Expr.read? "(#a+1" = .error err ∧ err.location = 5 ∧ err.line = 1 ∧
      err.column = 6 ∧ err.got? = some "end of input" ∧ Expects "(#a+1".toList ")" := by
  obtain ⟨e, l, failed, -, expects, -, location, line, column, got, -⟩ :=
    error_truthful (s := "(#a+1") rfl
  have run : source.run (enoughFuel "(#a+1".toList) "(#a+1".toList =
      .failure ⟨")", TextError.endMark, some ⟨5, 1, 6⟩⟩ "(#a+1".toList .start := rfl
  have reported : e = ⟨")", TextError.endMark, some ⟨5, 1, 6⟩⟩ := by
    rw [failed] at run
    injection run
  obtain rfl : 5 = l := Int.ofNat.inj location
  rw [reported] at expects
  exact ⟨_, rfl, location, line, column, got.mpr rfl, expects⟩

end Reckoner.Grammar
