import Reckoner.Proofs.Grammar.Soundness

/-!
# What is derived is read

A derived text is read to its end when nothing follows that could go on with it. After an expression
only a closing bracket, a comma or the end of the text may stand, with spaces before it: then no
operator is found, and no earlier choice of the rules could have taken more or less. Rules with an
expression inside are run with a parser `inner` that is complete for texts below some length.
-/

namespace Reckoner.Grammar

open Reckoner.Parser Reckoner.TextParser

variable {n bound : Nat} {before ahead rest s t : List Char} {a e : Expr}

/-- What may follow an expression: spaces, and then the end, a closing bracket or a comma. -/
def Closed (rest : List Char) : Prop :=
  ∃ i rest', rest = blanks i ++ rest' ∧ ∀ c ∈ rest'.head?, c = ')' ∨ c = ']' ∨ c = ','

/-- `inner` reads the expressions that end, with what follows them, before `bound`, and fails where
the arguments of a call are over. -/
structure Complete [Alphabet] (inner : TextParser Expr) (n bound : Nat) : Prop where
  reads : ∀ {before s rest e}, Expression s e → Closed rest → (s ++ rest).length < bound →
    inner.Reads n before s rest e
  fails : ∀ {before rest}, (')' :: rest).length < bound → inner.Fails n before (')' :: rest)

/-! ## What stands at the front -/

theorem closed_cons (j : Nat) {c : Char} (h : c = ')' ∨ c = ']' ∨ c = ',') :
    Closed (blanks j ++ c :: rest) :=
  ⟨j, c :: rest, rfl, by rintro d ⟨⟩; exact h⟩

theorem closed_blanks (j : Nat) : Closed (blanks j) :=
  ⟨j, [], (List.append_nil _).symm, by simp⟩

theorem head?_blanks_append {i : Nat} {c : Char} (h : (blanks i ++ rest).head? = some c) :
    c = ' ' ∨ i = 0 ∧ rest.head? = some c := by
  cases i with
  | zero => exact .inr ⟨rfl, h⟩
  | succ i => exact .inl (Option.some.inj h).symm

theorem Number.head {x : Float} (h : Number s x) (rest : List Char) :
    ∃ c, (s ++ rest).head? = some c ∧ (c.isDigit = true ∨ c = '.' ∨ c = '+' ∨ c = '-') := by
  cases h with
  | @mk sg m ex written negative hsign hm _ =>
    cases hsign with
    | absent =>
      obtain ⟨c, hc, kind⟩ := hm.head (ex ++ rest)
      refine ⟨c, by simpa using hc, ?_⟩
      rcases kind with digit | point
      · exact .inl digit
      · exact .inr (.inl point)
    | plus => exact ⟨'+', rfl, by decide⟩
    | minus i => exact ⟨'-', rfl, by decide⟩

section

variable [Alphabet]

theorem Closed.separated (h : Closed rest) : Separated rest := by
  obtain ⟨i, rest', rfl, stops⟩ := h
  intro c hc
  have own : [' ', ')', ']', ','] ⊆ reserved := by decide
  have mark : c ∈ [' ', ')', ']', ','] := by
    rcases head?_blanks_append hc with rfl | ⟨-, hc⟩
    · decide
    · rcases stops c hc with rfl | rfl | rfl <;> decide
  refine ⟨isNameChar_reserved (own mark), ?_⟩
  rintro rfl
  exact absurd mark (by decide)

theorem IsName.head (h : IsName s) : ∃ c, (s ++ rest).head? = some c ∧ isNameChar c = true := by
  obtain ⟨c, s, rfl⟩ := List.exists_cons_of_ne_nil h.1
  exact ⟨c, rfl, h.2 c List.mem_cons_self⟩

theorem Operand.head (h : Operand s a) :
    ∃ c, s.head? = some c ∧ (isNameChar c = true ∨ c ∈ ['(', '#', '.', '+', '-']) := by
  cases h with
  | group => exact ⟨'(', rfl, .inr (by decide)⟩
  | number hx =>
    obtain ⟨c, front, kind⟩ := hx.head []
    rw [List.append_nil] at front
    refine ⟨c, front, ?_⟩
    rcases kind with digit | rfl | rfl | rfl
    · exact .inl (by simp [isNameChar, digit])
    all_goals exact .inr (by decide)
  | var => exact ⟨'#', rfl, .inr (by decide)⟩
  | reference => exact ⟨'v', rfl, .inl (isNameChar_of_isAlpha rfl)⟩
  | call i j hf _ =>
    obtain ⟨c, front, name⟩ := hf.1.head
    exact ⟨c, front, .inl name⟩

theorem Expression.head (h : Expression s e) :
    ∃ c, s.head? = some c ∧ (isNameChar c = true ∨ c ∈ ['(', '#', '.', '+', '-']) := by
  cases h with
  | operand ha => exact ha.head
  | operation i j o ha _ =>
    obtain ⟨c, front, kind⟩ := ha.head
    exact ⟨c, by rw [List.head?_append, front, Option.some_or], kind⟩

theorem Expression.head_ne_blank (h : Expression s e) : (s ++ rest).head? ≠ some ' ' := by
  obtain ⟨c, front, kind⟩ := h.head
  rw [List.head?_append, front, Option.some_or]
  rintro ⟨⟩
  rcases kind with name | mark
  · rw [isNameChar_reserved (by decide)] at name
    cases name
  · exact absurd mark (by decide)

theorem FurtherArguments.closed {es : List Expr} (h : FurtherArguments Expression t es)
    (hr : Closed rest) : Closed (t ++ rest) := by
  cases h with
  | nil => exact hr
  | cons i j _ _ =>
    rw [List.append_assoc]
    exact closed_cons i (.inr (.inr rfl))

end

/-! ## Brackets -/

theorem reads_bracketed {α β : Type} {opening : TextParser β} {body : TextParser α}
    {front : List Char} {close : Char} {w : β} {v : α} (i j : Nat)
    (hopen : opening.Reads n before front (blanks i ++ (t ++ (blanks j ++ close :: rest))) w)
    (hbody : body.Reads n (before ++ (front ++ blanks i)) t (blanks j ++ close :: rest) v)
    (hhead : (t ++ (blanks j ++ close :: rest)).head? ≠ some ' ') (hclose : close ≠ ' ')
    (hi : i ≤ n) (hj : j ≤ n) :
    ((((opening.seqRight spaces).seqRight body).seqLeft spaces).seqLeft (char close)).Reads n before
      (front ++ (blanks i ++ (t ++ (blanks j ++ [close])))) rest v := by
  have opened := hopen.seqRight (reads_spaces hhead hi)
  have read := opened.seqRight hbody
  have stops : (close :: rest).head? ≠ some ' ' := by simpa using hclose
  have padded := read.seqLeft (reads_spaces stops hj)
  have closed := padded.seqLeft (reads_char close)
  simpa only [List.append_assoc] using closed

/-! ## Arguments -/

variable {inner : TextParser Expr} {es : List Expr}

/-- The separator of arguments and the argument after it, as `sepBy` repeats them. -/
abbrev furtherArgument (inner : TextParser Expr) : TextParser Expr :=
  ((spaces.seqLeft (char ',')).seqLeft spaces).seqRight inner

theorem fails_furtherArgument (j : Nat) (hj : j ≤ n) :
    (furtherArgument inner).Fails n before (blanks j ++ ')' :: rest) := by
  refine Fails.bind (Fails.bind (Reads.bind_fails (reads_spaces (by simp) hj) (Fails.map _ ?_)))
  exact fails_char (by simp)

section

variable [Alphabet]

theorem reads_furtherArgument (i j : Nat)
    (hs : inner.Reads n (before ++ (blanks i ++ ',' :: blanks j)) s rest e)
    (he : Expression s e) (hi : i ≤ n) (hj : j ≤ n) :
    (furtherArgument inner).Reads n before (blanks i ++ ',' :: (blanks j ++ s)) rest e := by
  have comma : (spaces.seqLeft (char ',')).Reads n before (blanks i ++ [','])
      (blanks j ++ (s ++ rest)) (blanks i) :=
    (reads_spaces (by simp) hi).seqLeft (reads_char ',')
  have separator := comma.seqLeft (reads_spaces he.head_ne_blank hj)
  have whole := separator.seqRight (q := inner) (by simpa using hs)
  simpa using whole

theorem readsRow_furtherArguments (hi : Complete inner n bound)
    (h : FurtherArguments Expression t es) (j : Nat)
    (short : (t ++ (blanks j ++ ')' :: rest)).length < bound)
    (enough : (t ++ (blanks j ++ ')' :: rest)).length ≤ n) :
    (furtherArgument inner).ReadsRow n (blanks j ++ ')' :: rest) before t es := by
  induction h generalizing before with
  | nil =>
    simp only [List.nil_append, List.length_append, List.length_replicate] at enough
    exact .stop (fails_furtherArgument j (by omega))
  | @cons s t e es i k he hes ih =>
    simp only [List.length_append, List.length_cons, List.length_replicate] at short enough ih
    have closed : Closed (t ++ (blanks j ++ ')' :: rest)) :=
      hes.closed (closed_cons j (.inl rfl))
    have item : inner.Reads n (before ++ (blanks i ++ ',' :: blanks k)) s
        (t ++ (blanks j ++ ')' :: rest)) e := by
      refine hi.reads he closed ?_
      simp only [List.length_append, List.length_cons, List.length_replicate]
      omega
    have first := reads_furtherArgument i k item he (by omega) (by omega)
    have row := ReadsRow.next first (ih (by omega) (by omega))
    simpa using row

theorem FurtherArguments.length_le (h : FurtherArguments Expression t es) :
    es.length ≤ t.length := by
  induction h with
  | nil => exact Nat.le_refl _
  | cons i j _ _ ih =>
    simp only [List.length_cons, List.length_append]
    omega

theorem reads_sepBy (hi : Complete inner n bound) (h : Arguments Expression t es) (j : Nat)
    (short : (t ++ (blanks j ++ ')' :: rest)).length < bound)
    (enough : (t ++ (blanks j ++ ')' :: rest)).length ≤ n) (hj : t = [] → j = 0) :
    (sepBy inner ((spaces.seqLeft (char ',')).seqLeft spaces)).Reads n before t
      (blanks j ++ ')' :: rest) es := by
  cases h with
  | none =>
    obtain rfl := hj rfl
    exact Fails.orElse_reads (Fails.bind (hi.fails short)) reads_pure
  | @some s t e es he hes =>
    simp only [List.append_assoc, List.length_append, List.length_cons,
      List.length_replicate] at short enough
    have later : (t ++ (blanks j ++ ')' :: rest)).length =
        t.length + (j + (rest.length + 1)) := by
      simp only [List.length_append, List.length_cons, List.length_replicate]
    have row : (furtherArgument inner).ReadsRow n (blanks j ++ ')' :: rest) (before ++ s) t es :=
      readsRow_furtherArguments hi hes j (by omega) (by omega)
    refine Reads.orElse (Reads.bind (hi.reads he ?_ ?_) (Reads.map _ (row.many ?_)))
    · exact hes.closed (closed_cons j (.inl rfl))
    · rw [List.length_append]
      omega
    · have := hes.length_le
      omega

/-- When there are no arguments, all spaces between the parentheses are read before them. -/
theorem reads_arguments (hi : Complete inner n bound) (h : Arguments Expression t es) (i j : Nat)
    (short : ('(' :: (blanks i ++ (t ++ (blanks j ++ [')']))) ++ rest).length ≤ bound)
    (enough : ('(' :: (blanks i ++ (t ++ (blanks j ++ [')']))) ++ rest).length ≤ n) :
    (arguments inner).Reads n before ('(' :: (blanks i ++ (t ++ (blanks j ++ [')'])))) rest es := by
  simp only [List.length_append, List.length_cons, List.length_replicate, List.length_nil]
    at short enough
  have body : ∀ i' j', (t = [] → j' = 0) → i' + j' = i + j →
      (arguments inner).Reads n before
        (['('] ++ (blanks i' ++ (t ++ (blanks j' ++ [')'])))) rest es := by
    intro i' j' hj same
    refine reads_bracketed (t := t) (v := es) i' j' (reads_char '(')
      (reads_sepBy hi h j' ?_ ?_ hj) ?_ (by decide) (by omega) (by omega)
    · simp only [List.length_append, List.length_cons, List.length_replicate]
      omega
    · simp only [List.length_append, List.length_cons, List.length_replicate]
      omega
    · cases h with
      | none =>
        rw [hj rfl]
        simp
      | some he _ =>
        rw [List.append_assoc]
        exact he.head_ne_blank
  -- without arguments the spaces `j` belong to those before them
  by_cases empty : t = []
  · have whole := body (i + j) 0 (fun _ => rfl) rfl
    subst empty
    simpa [← List.replicate_append_replicate] using whole
  · exact body i j (fun h => absurd h empty) rfl

end

/-! ## Operands -/

theorem misses_groupOperand (h : ahead.head? ≠ some '(') :
    (groupOperand inner).Misses n before ahead
      (errorAt (String.singleton '(') (Position.start.after before) ahead.head?) :=
  (((((misses_char h).bind).bind).bind).bind).map _

theorem fails_groupOperand (h : ahead.head? ≠ some '(') :
    (groupOperand inner).Fails n before ahead :=
  ⟨_, misses_groupOperand h⟩

section

variable [Alphabet]

theorem misses_callOperand (h : ∀ c ∈ ahead.head?, isNameChar c = false) :
    (callOperand inner).Misses n before ahead
      (errorAt "name" (Position.start.after before) ahead.head?) :=
  ((misses_name h).bind).map _

theorem fails_callOperand (h : ∀ c ∈ ahead.head?, isNameChar c = false) :
    (callOperand inner).Fails n before ahead :=
  ⟨_, misses_callOperand h⟩

/-- `farthestOf` finds a call or a bound operand after a parenthesis and a number are not found. -/
theorem reads_operand_of_anyKind
    (h : (farthestOf (groupOperand inner)
      [numberOperand, callOperand inner, boundOperand inner]).Reads n before s rest a) :
    (operand inner).Reads n before s rest a := by
  have whole := Reads.bind (p := position) (a := []) (b := s)
    (f := fun start => (farthestOf (groupOperand inner)
      [numberOperand, callOperand inner, boundOperand inner]).mapError (operandError start))
    reads_position (by simpa using h.mapError _)
  exact whole

/-- An expression between brackets, in the place of an operand. -/
theorem reads_bracketed_expression {β : Type} {opening : TextParser β} {front : List Char}
    {close : Char} {w : β} (hi : Complete inner n bound) (he : Expression s e) (i j : Nat)
    (hopen : opening.Reads n before front (blanks i ++ (s ++ (blanks j ++ close :: rest))) w)
    (some : front ≠ []) (hclose : close = ')' ∨ close = ']')
    (short : (front ++ (blanks i ++ (s ++ (blanks j ++ [close]))) ++ rest).length ≤ bound)
    (enough : (front ++ (blanks i ++ (s ++ (blanks j ++ [close]))) ++ rest).length ≤ n) :
    ((((opening.seqRight spaces).seqRight inner).seqLeft spaces).seqLeft (char close)).Reads n
      before (front ++ (blanks i ++ (s ++ (blanks j ++ [close])))) rest e := by
  have pos : 0 < front.length := List.length_pos_iff.mpr some
  simp only [List.length_append, List.length_cons, List.length_replicate, List.length_nil]
    at short enough
  refine reads_bracketed i j hopen (hi.reads he ?_ ?_) he.head_ne_blank ?_ (by omega) (by omega)
  · exact closed_cons j (by rcases hclose with h | h <;> simp [h])
  · simp only [List.length_append, List.length_cons, List.length_replicate]
    omega
  · rcases hclose with rfl | rfl <;> decide

theorem reads_groupOperand (hi : Complete inner n bound) (he : Expression s e) (i j : Nat)
    (short : ('(' :: (blanks i ++ (s ++ (blanks j ++ [')']))) ++ rest).length ≤ bound)
    (enough : ('(' :: (blanks i ++ (s ++ (blanks j ++ [')']))) ++ rest).length ≤ n) :
    (groupOperand inner).Reads n before ('(' :: (blanks i ++ (s ++ (blanks j ++ [')'])))) rest
      e.group := by
  have opening : (char '(').Reads n before ['('] (blanks i ++ (s ++ (blanks j ++ ')' :: rest)))
      '(' := reads_char '('
  have whole := reads_bracketed_expression hi he i j opening (by simp) (.inl rfl) short enough
  exact whole.map _

theorem reads_referenceOperand (hi : Complete inner n bound) (he : Expression s e) (i j : Nat)
    (short : ('v' :: '[' :: (blanks i ++ (s ++ (blanks j ++ [']']))) ++ rest).length ≤ bound)
    (enough : ('v' :: '[' :: (blanks i ++ (s ++ (blanks j ++ [']']))) ++ rest).length ≤ n) :
    (referenceOperand inner).Reads n before
      ('v' :: '[' :: (blanks i ++ (s ++ (blanks j ++ [']'])))) rest (.external e) := by
  have opening : ((char 'v').seqRight (char '[')).Reads n before ['v', '[']
      (blanks i ++ (s ++ (blanks j ++ ']' :: rest))) '[' :=
    (reads_char 'v').seqRight (reads_char '[')
  have whole := reads_bracketed_expression hi he i j opening (by simp) (.inr rfl) short enough
  exact whole.map _

theorem reads_variableOperand (hs : IsName s) (hr : Separated rest) (enough : s.length ≤ n) :
    variableOperand.Reads n before ('#' :: s) rest (.var (String.ofList s)) :=
  Reads.map _ ((reads_char '#').seqRight (reads_name hs (fun c hc => (hr c hc).1) enough))

theorem reads_callOperand {f : List Char} (hi : Complete inner n bound) (hf : IsName f)
    (h : Arguments Expression s es) (i j : Nat)
    (short : ('(' :: (blanks i ++ (s ++ (blanks j ++ [')']))) ++ rest).length ≤ bound)
    (enough : (f ++ '(' :: (blanks i ++ (s ++ (blanks j ++ [')']))) ++ rest).length ≤ n) :
    (callOperand inner).Reads n before (f ++ '(' :: (blanks i ++ (s ++ (blanks j ++ [')'])))) rest
      (.call (String.ofList f) es) := by
  rw [List.append_assoc, List.length_append] at enough
  refine Reads.map _ (Reads.both ?_ (reads_arguments hi h i j short (by omega)))
  refine reads_name hf ?_ (by omega)
  rintro d ⟨⟩
  exact isNameChar_reserved (by decide)

/-- The mark of a reference is a name, but no arguments follow it. -/
theorem misses_callOperand_reference (turns : 0 < n) :
    (callOperand inner).Misses n before (['v'] ++ '[' :: rest)
      (errorAt (String.singleton '(') (Position.start.after (before ++ ['v'])) (some '[')) := by
  have mark : name.Reads n before ['v'] ('[' :: rest) "v" := by
    refine reads_name ⟨by simp, ?_⟩ ?_ turns
    · intro c hc
      obtain rfl := List.mem_singleton.mp hc
      exact isNameChar_of_isAlpha rfl
    · rintro c ⟨⟩
      exact isNameChar_reserved (by decide)
  have opening : (char '(').Misses n (before ++ ['v']) ('[' :: rest)
      (errorAt (String.singleton '(') (Position.start.after (before ++ ['v'])) (some '[')) :=
    misses_char (by simp)
  exact (mark.bind_misses (((((opening.bind).bind).bind).bind).map _)).map _

theorem fails_callOperand_reference (turns : 0 < n) :
    (callOperand inner).Fails n before ('v' :: '[' :: rest) :=
  ⟨_, misses_callOperand_reference turns⟩

theorem reads_operand (hi : Complete inner n bound) (h : Operand s a) (hr : Separated rest)
    (short : (s ++ rest).length ≤ bound) (enough : (s ++ rest).length ≤ n) :
    (operand inner).Reads n before s rest a := by
  suffices anyKind : (farthestOf (groupOperand inner)
      [numberOperand, callOperand inner, boundOperand inner]).Reads n before s rest a from
    reads_operand_of_anyKind anyKind
  cases h with
  | group i j he => exact (reads_groupOperand hi he i j short enough).farthestOf
  | number hx =>
    rw [List.length_append] at enough
    obtain ⟨c, hc, kind⟩ := hx.head rest
    refine Fails.farthestOf_reads (fails_groupOperand ?_) (Reads.farthestOf ?_)
    · rw [hc]
      rintro ⟨⟩
      exact absurd kind (by decide)
    · exact (reads_number hx hr.endsNumber (by omega)).map _
  | var hs =>
    simp only [List.length_append, List.length_cons] at enough
    refine Fails.farthestOf_reads (fails_groupOperand (by simp)) ?_
    refine Fails.farthestOf_reads (Fails.map _ (fails_number (by rintro c ⟨⟩; decide))) ?_
    refine Fails.farthestOf_reads (fails_callOperand ?_) (Reads.farthestOf (Reads.farthestOf ?_))
    · rintro c ⟨⟩
      exact isNameChar_reserved (by decide)
    · exact reads_variableOperand hs hr (by omega)
  | reference i j he =>
    refine Fails.farthestOf_reads (fails_groupOperand (by simp)) ?_
    refine Fails.farthestOf_reads (Fails.map _ (fails_number (by rintro c ⟨⟩; decide))) ?_
    have turns : 0 < n := Nat.lt_of_lt_of_le (by simp) enough
    -- `v` is read as the name of a function before the bracket shows that it is not one
    refine Fails.farthestOf_reads (fails_callOperand_reference turns) (Reads.farthestOf ?_)
    refine Fails.farthestOf_reads (Fails.map _ (Fails.bind (fails_char (by simp)))) ?_
    exact (reads_referenceOperand hi he i j short enough).farthestOf
  | @call f s es i j hf hes =>
    obtain ⟨c, f', rfl⟩ := List.exists_cons_of_ne_nil hf.1.1
    have plain : ∀ d ∈ reserved, c ≠ d :=
      fun d hd => ne_of_isNameChar (hf.1.2 c List.mem_cons_self) hd
    refine Fails.farthestOf_reads (fails_groupOperand ?_) ?_
    · simpa using plain '(' (by decide)
    refine Fails.farthestOf_reads (Fails.map _ (fails_number ?_)) ?_
    · rintro d ⟨⟩
      exact ⟨hf.2 c rfl, plain '.' (by decide), plain '+' (by decide), plain '-' (by decide)⟩
    refine (reads_callOperand hi hf.1 hes i j ?_ enough).farthestOf
    rw [List.append_assoc, List.length_append] at short
    omega

/-- No operand starts with a closing parenthesis. -/
theorem fails_operand_close : (operand inner).Fails n before (')' :: rest) := by
  have name : ∀ c ∈ (')' :: rest).head?, isNameChar c = false := by
    rintro c ⟨⟩
    exact isNameChar_reserved (by decide)
  have bound : (boundOperand inner).Fails n before (')' :: rest) := by
    refine Fails.farthestOf (Fails.map _ (Fails.bind (fails_char (by simp)))) fun q hq => ?_
    rw [List.mem_singleton.mp hq]
    exact (((((Fails.bind (fails_char (by simp))).bind).bind).bind).bind).map _
  have anyKind : (farthestOf (groupOperand inner)
      [numberOperand, callOperand inner, boundOperand inner]).Fails n before (')' :: rest) := by
    refine (fails_groupOperand (by simp)).farthestOf fun q hq => ?_
    simp only [List.mem_cons, List.not_mem_nil, or_false] at hq
    rcases hq with rfl | rfl | rfl
    · exact (fails_number (by rintro c ⟨⟩; decide)).map _
    · exact fails_callOperand name
    · exact bound
  have start : position.Reads n before [] (')' :: rest) (Position.start.after before) :=
    reads_position
  refine start.bind_fails ?_
  rw [List.append_nil]
  exact anyKind.mapError _

end

/-! ## Expressions -/

theorem fails_operator_closed (h : ∀ c ∈ rest.head?, c = ')' ∨ c = ']' ∨ c = ',') :
    operator.Fails n before rest := by
  refine fails_operator fun o found => ?_
  obtain ⟨t, rfl⟩ := found
  cases o <;> simp [Operation.symbol] at h

theorem fails_nextOperator (hr : Closed rest) (enough : rest.length ≤ n) :
    (spaces.seqRight operator).Fails n before rest := by
  obtain ⟨i, rest', rfl, stops⟩ := hr
  rw [List.length_append, List.length_replicate] at enough
  have blank : rest'.head? ≠ some ' ' := fun h => absurd (stops ' ' h) (by decide)
  exact Reads.bind_fails (reads_spaces blank (by omega)) (fails_operator_closed stops)

theorem reads_continuation_end (hr : Closed rest) (enough : rest.length ≤ n) :
    (continuation inner a).Reads n before [] rest a := by
  have none : ((spaces.seqRight operator).map some).Fails n before rest :=
    (fails_nextOperator hr enough).map _
  exact Reads.bind (a := []) none.orDefault reads_pure

theorem head?_symbol_append (o : Operation) : (o.symbol.toList ++ rest).head? ≠ some ' ' := by
  cases o <;> simp [Operation.symbol]

theorem reads_nextOperator (i : Nat) (o : Operation) (enough : i ≤ n) :
    (spaces.seqRight operator).Reads n before (blanks i ++ o.symbol.toList) rest o :=
  (reads_spaces (head?_symbol_append o) enough).seqRight (reads_operator o)

variable [Alphabet]

theorem separated_symbol (i : Nat) (o : Operation) :
    Separated (blanks i ++ (o.symbol.toList ++ rest)) := by
  intro c hc
  have own : o.symbol.toList ⊆ reserved := by cases o <;> decide
  have other : '.' ∉ o.symbol.toList := by cases o <;> decide
  rcases head?_blanks_append hc with rfl | ⟨-, hc⟩
  · exact ⟨isNameChar_reserved (by decide), by decide⟩
  · obtain ⟨d, single⟩ := List.length_eq_one_iff.mp (length_symbol o)
    rw [single] at hc own other
    obtain rfl : d = c := Option.some.inj hc
    exact ⟨isNameChar_reserved (own List.mem_cons_self), (List.ne_of_not_mem_cons other).symm⟩

theorem reads_rightHandSide (hi : Complete inner n bound) (he : Expression t e) (j : Nat)
    (o : Operation) (hr : Closed rest) (short : (t ++ rest).length < bound) (enough : j ≤ n) :
    (rightHandSide inner o a).Reads n before (blanks j ++ t) rest (a.attach o e) :=
  ((reads_spaces he.head_ne_blank enough).seqRight (hi.reads he hr short)).map _

theorem reads_continuation (hi : Complete inner n bound) (he : Expression t e) (i j : Nat)
    (o : Operation) (hr : Closed rest) (short : (t ++ rest).length < bound)
    (enough : i ≤ n ∧ j ≤ n) :
    (continuation inner a).Reads n before
      (blanks i ++ (o.symbol.toList ++ (blanks j ++ t))) rest (a.attach o e) := by
  have sign : (spaces.seqRight operator).Reads n before (blanks i ++ o.symbol.toList)
      ((blanks j ++ t) ++ rest) o := reads_nextOperator i o enough.1
  have right : (rightHandSide inner o a).Reads n
      (before ++ (blanks i ++ o.symbol.toList)) (blanks j ++ t) rest (a.attach o e) :=
    reads_rightHandSide hi he j o hr short enough.2
  have whole : (continuation inner a).Reads n before
      ((blanks i ++ o.symbol.toList) ++ (blanks j ++ t)) rest (a.attach o e) :=
    (sign.map some).orDefault.bind right
  simpa only [List.append_assoc] using whole

/-- An expression is read as its first operand and what goes on with it. -/
theorem reads_expressionLevel (hi : Complete inner n bound) (he : Expression s e)
    (hr : Closed rest) (short : (s ++ rest).length ≤ bound) (enough : (s ++ rest).length ≤ n) :
    (expressionLevel inner).Reads n before s rest e := by
  cases he with
  | operand ha =>
    have rest_le : rest.length ≤ n := by
      rw [List.length_append] at enough
      omega
    have first : (operand inner).Reads n before s rest e :=
      reads_operand hi ha hr.separated short enough
    have whole : (expressionLevel inner).Reads n before (s ++ []) rest e :=
      Reads.bind first (reads_continuation_end hr rest_le)
    rwa [List.append_nil] at whole
  | @operation s t a e i j o ha ht =>
    simp only [List.append_assoc] at short enough
    have lengths := And.intro short enough
    simp only [List.length_append, List.length_replicate, length_symbol] at lengths
    have first : (operand inner).Reads n before s
        (blanks i ++ (o.symbol.toList ++ (blanks j ++ (t ++ rest)))) a :=
      reads_operand hi ha (separated_symbol i o) short enough
    -- the operator's sign has been read before `inner` runs on what is left
    have second : (continuation inner a).Reads n (before ++ s)
        (blanks i ++ (o.symbol.toList ++ (blanks j ++ t))) rest (a.attach o e) :=
      reads_continuation hi ht i j o hr (by rw [List.length_append]; omega) (by omega)
    exact Reads.bind (by simpa only [List.append_assoc] using first) second

theorem complete_expressionAt (depth : Nat) (h : depth ≤ n + 1) :
    Complete (expressionAt depth) n depth := by
  induction depth with
  | zero => exact ⟨fun _ _ short => absurd short (Nat.not_lt_zero _),
      fun short => absurd short (Nat.not_lt_zero _)⟩
  | succ depth ih =>
    constructor
    · intro before s rest e he hr short
      have level : (expressionLevel (expressionAt depth)).Reads n before s rest e :=
        reads_expressionLevel (ih (by omega)) he hr (Nat.le_of_lt_succ short) (by omega)
      exact level
    · intro before rest _
      have level : (expressionLevel (expressionAt depth)).Fails n before (')' :: rest) :=
        fails_operand_close.bind
      exact level

/-- A derived source is read with the spaces around it, up to its end or a closing bracket. -/
theorem reads_padded {text : List Char} (hi : Complete inner n n) (h : Source text e)
    (stops : ∀ c ∈ rest.head?, c = ')' ∨ c = ']' ∨ c = ',')
    (enough : text.length + rest.length < n) :
    ((spaces.seqRight inner).seqLeft spaces).Reads n [] text rest e := by
  have solid : rest.head? ≠ some ' ' := by
    intro blank
    rcases stops ' ' blank with h | h | h <;> exact absurd h (by decide)
  cases h with
  | @mk s e i j he =>
    simp only [List.length_append, List.length_replicate] at enough
    have body : inner.Reads n ([] ++ blanks i) s (blanks j ++ rest) e :=
      hi.reads he ⟨j, rest, rfl, stops⟩
        (by simp only [List.length_append, List.length_replicate]; omega)
    have start : (spaces.seqRight inner).Reads n [] (blanks i ++ s) (blanks j ++ rest) e :=
      (reads_spaces he.head_ne_blank (by omega)).seqRight body
    have whole := start.seqLeft (reads_spaces solid (by omega))
    rwa [List.append_assoc] at whole

/-- A derived source is read to its end, with any parser of expressions that is complete. -/
theorem reads_spanning {text : List Char} (hi : Complete inner n n) (h : Source text e)
    (enough : text.length < n) :
    (((spaces.seqRight inner).seqLeft spaces).seqLeft endOfText).Reads n [] text [] e := by
  have padded : ((spaces.seqRight inner).seqLeft spaces).Reads n [] text ([] ++ []) e :=
    reads_padded hi h (by simp) enough
  have whole := padded.seqLeft reads_endOfText
  rwa [List.append_nil] at whole

theorem complete_expression : Complete expression n n :=
  have body := complete_expressionAt (n := n) n (Nat.le_succ n)
  ⟨body.reads, body.fails⟩

theorem reads_source {text : List Char} (h : Source text e) (enough : text.length < n) :
    source.Reads n [] text [] e :=
  reads_spanning complete_expression h enough

end Reckoner.Grammar
