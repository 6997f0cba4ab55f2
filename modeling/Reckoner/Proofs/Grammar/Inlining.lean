import Reckoner.Proofs.Eval.Inlining
import Reckoner.Proofs.Grammar.Exactness
import Reckoner.Proofs.Grammar.Precedence
import Reckoner.Text.Letter

/-!
# Writing an expression out in a text

Where a source refers to a variable, another source may be written in parentheses. The new text
reads as the tree in which the tree of that source stands for the variable: parentheses keep the
text together, and neither a variable nor what is in parentheses is ever taken apart by precedence.
A reference is `#` with all the characters of names that follow, so `#xy` is none to `x`.
-/

namespace Reckoner.Grammar

/-- A text with a source in parentheses for each reference to a name. While `inside`, what is left
of a reference that has been replaced is passed over. -/
def inlined [Alphabet] (name replacement : List Char) : (inside : Bool) → List Char → List Char
  | _, [] => []
  | inside, c :: rest =>
    if inside && isNameChar c then inlined name replacement true rest
    else if c = '#' ∧ rest.takeWhile isNameChar = name then
      '(' :: (replacement ++ ')' :: inlined name replacement true rest)
    else c :: inlined name replacement false rest

/-- A text with a source in parentheses for each reference to a name. -/
def inlineText [Alphabet] (name replacement text : String) : String :=
  String.ofList (inlined name.toList replacement.toList false text.toList)

/-! ## Trees -/

section Trees

variable {r : Expr} {name : String}

theorem group_of_closed {e : Expr} (h : e.isOpen = false) : e.group = e := by
  cases e with
  | binary s a b grouped =>
    cases grouped with
    | false => cases h
    | true => rfl
  | number _ | var _ | external _ | call _ _ | foreign _ => rfl

theorem isOpen_inline (hr : r.isOpen = false) (e : Expr) :
    (Expr.inline name r e).isOpen = e.isOpen := by
  cases e with
  | var other =>
    rw [Expr.inline]
    split
    · exact hr
    · rfl
  | binary _ _ _ grouped => cases grouped <;> rfl
  | number _ | external _ | call _ _ | foreign _ => rfl

theorem inline_group (hr : r.isOpen = false) (e : Expr) :
    Expr.inline name r e.group = (Expr.inline name r e).group := by
  cases e with
  | var other => exact (group_of_closed (isOpen_inline hr (.var other))).symm
  | binary _ _ _ _ | number _ | external _ | call _ _ | foreign _ => rfl

theorem attach?_inline (hr : r.isOpen = false) (symbol : String) (a e : Expr) :
    Expr.attach? symbol (Expr.inline name r a) (Expr.inline name r e) =
      (Expr.attach? symbol a e).map (Expr.inline name r) := by
  induction e using Expr.attach?.induct with
  | case1 inner l b ih =>
    rw [Expr.inline, Expr.attach?, Expr.attach?, ih]
    cases appliesBefore? symbol inner with
    | none => rfl
    | some first =>
      cases first with
      | true => cases Expr.attach? symbol a l <;> rfl
      | false => rfl
  | case2 e other =>
    have closed := Expr.isOpen_eq_false other
    rw [Expr.attach?_closed closed, Expr.attach?_closed ((isOpen_inline hr e).trans closed)]
    rfl

/-- An operand is attached in the same way, whatever stands for a variable in it. -/
theorem attach_inline (hr : r.isOpen = false) (a : Expr) (o : Operation) (e : Expr) :
    (Expr.inline name r a).attach o (Expr.inline name r e) = Expr.inline name r (a.attach o e) := by
  unfold Expr.attach
  rw [attach?_inline hr]
  cases Expr.attach? o.symbol a e <;> rfl

end Trees

/-! ## Texts -/

section Texts

variable [Alphabet] {name replacement s rest : List Char}

theorem inlined_append (plain : '#' ∉ s) :
    inlined name replacement false (s ++ rest) = s ++ inlined name replacement false rest := by
  induction s with
  | nil => rfl
  | cons c s ih =>
    obtain ⟨other, plain⟩ := not_or.mp (mt List.mem_cons.mpr plain)
    rw [List.cons_append, inlined, if_neg (by simp), if_neg fun h => other h.1.symm, ih plain]
    rfl

/-- What is left of a reference ends where no name can go on. -/
theorem inlined_inside (h : ∀ c ∈ s, isNameChar c = true) (stops : Separated rest) :
    inlined name replacement true (s ++ rest) = inlined name replacement false rest := by
  induction s with
  | nil =>
    cases rest with
    | nil => rfl
    | cons c rest =>
      have other : isNameChar c = false := (stops c rfl).1
      rw [List.nil_append, inlined, inlined, other]
      rfl
  | cons c s ih =>
    obtain ⟨front, h⟩ := List.forall_mem_cons.mp h
    rw [List.cons_append, inlined, if_pos (by rw [front]; rfl), ih h]

theorem takeWhile_name (h : IsName s) (stops : Separated rest) :
    (s ++ rest).takeWhile isNameChar = s := by
  rw [List.takeWhile_append_of_pos h.2]
  cases rest with
  | nil => exact List.append_nil s
  | cons c rest => rw [List.takeWhile_cons_of_neg (by simp [(stops c rfl).1]), List.append_nil]

theorem inlined_reference (h : IsName s) (stops : Separated rest) :
    inlined name replacement false ('#' :: (s ++ rest)) =
      (if s = name then '(' :: (replacement ++ [')']) else '#' :: s) ++
        inlined name replacement false rest := by
  have plain : '#' ∉ s := h.not_mem (isNameChar_reserved (by decide))
  rw [inlined, if_neg (by simp), takeWhile_name h stops]
  by_cases same : s = name
  · rw [if_pos ⟨rfl, same⟩, if_pos same, inlined_inside h.2 stops]
    simp
  · rw [if_neg fun h => same h.2, if_neg same, inlined_append plain]
    rfl

/-- What becomes of a piece of a text before something that no name goes on with. -/
def InlinesTo (name replacement s s' : List Char) : Prop :=
  ∀ rest, Separated rest → inlined name replacement false (s ++ rest) =
    s' ++ inlined name replacement false rest

variable {s' : List Char}

theorem inlinesTo_self (plain : '#' ∉ s) : InlinesTo name replacement s s :=
  fun _ _ => inlined_append plain

theorem inlined_cons {c : Char} (other : c ≠ '#') :
    inlined name replacement false (c :: rest) = c :: inlined name replacement false rest :=
  inlined_append (s := [c]) (by simpa using other.symm)

theorem inlined_blanks (i : Nat) : inlined name replacement false (blanks i ++ rest) =
    blanks i ++ inlined name replacement false rest :=
  inlined_append (by simp)

theorem inlined_symbol (o : Operation) :
    inlined name replacement false (o.symbol.toList ++ rest) =
      o.symbol.toList ++ inlined name replacement false rest :=
  inlined_append (by cases o <;> decide)

/-- Spaces, a piece and a closing bracket with spaces before it. -/
theorem InlinesTo.bracketed (h : InlinesTo name replacement s s') (i j : Nat) {c : Char}
    (close : c = ')' ∨ c = ']') :
    inlined name replacement false (blanks i ++ (s ++ (blanks j ++ [c])) ++ rest) =
      blanks i ++ (s' ++ (blanks j ++ [c])) ++ inlined name replacement false rest := by
  have other : c ≠ '#' := by rcases close with rfl | rfl <;> decide
  have closed : Closed (blanks j ++ c :: rest) :=
    closed_cons j (by rcases close with rfl | rfl <;> simp)
  simp only [List.append_assoc, List.cons_append, List.nil_append]
  rw [inlined_blanks, h _ closed.separated, inlined_blanks, inlined_cons other]

end Texts

/-! ## Derivations -/

section Derivations

variable [Alphabet] {name replacement : List Char} {e₁ : Expr}

mutual
theorem expression_inlined (hr : Source replacement e₁) : ∀ {s : List Char} {e : Expr},
    Expression s e → ∃ s', InlinesTo name replacement s s' ∧
      Expression s' (Expr.inline (String.ofList name) e₁.group e)
  | _, _, .operand ha => by
    obtain ⟨s', becomes, derived⟩ := operand_inlined hr ha
    exact ⟨s', becomes, .operand derived⟩
  | _, _, @Expression.operation _ s t a e i j o ha he => by
    obtain ⟨s', first, ha'⟩ := operand_inlined hr ha
    obtain ⟨t', second, he'⟩ := expression_inlined hr he
    have derived := Expression.operation i j o ha' he'
    rw [attach_inline (isOpen_group e₁)] at derived
    -- a sign stands behind the operand, so a name at its end does not run on
    refine ⟨_, fun rest separated => ?_, derived⟩
    simp only [List.append_assoc]
    rw [first _ (separated_symbol i o), inlined_blanks, inlined_symbol, inlined_blanks,
      second rest separated]

theorem operand_inlined (hr : Source replacement e₁) : ∀ {s : List Char} {a : Expr},
    Operand s a → ∃ s', InlinesTo name replacement s s' ∧
      Operand s' (Expr.inline (String.ofList name) e₁.group a)
  | _, _, @Operand.group _ s e i j he => by
    obtain ⟨s', becomes, derived⟩ := expression_inlined hr he
    refine ⟨'(' :: (blanks i ++ (s' ++ (blanks j ++ [')']))), fun rest _ => ?_, ?_⟩
    · rw [List.cons_append, inlined_cons (by decide), becomes.bracketed i j (.inl rfl)]
      rfl
    · rw [inline_group (isOpen_group e₁)]
      exact .group i j derived
  | s, _, .number h =>
    ⟨s, inlinesTo_self (h.not_mem (isNameChar_reserved (by decide)) (by decide)), .number h⟩
  | _, _, @Operand.var _ s h => by
    refine ⟨if s = name then '(' :: (replacement ++ [')']) else '#' :: s,
      fun rest separated => inlined_reference h separated, ?_⟩
    rw [Expr.inline]
    by_cases same : s = name
    · rw [if_pos same, if_pos (congrArg String.ofList same)]
      cases hr with
      | mk i j derived => simpa using Operand.group i j derived
    · rw [if_neg same, if_neg fun equal => same (String.ofList_injective equal)]
      exact .var h
  | _, _, @Operand.reference _ s e i j he => by
    obtain ⟨s', becomes, derived⟩ := expression_inlined hr he
    refine ⟨'v' :: '[' :: (blanks i ++ (s' ++ (blanks j ++ [']']))), fun rest _ => ?_,
      .reference i j derived⟩
    rw [List.cons_append, List.cons_append, inlined_cons (by decide), inlined_cons (by decide),
      becomes.bracketed i j (.inr rfl)]
    rfl
  | _, _, @Operand.call _ f s es i j hf hes => by
    obtain ⟨s', becomes, derived⟩ := arguments_inlined hr hes
    have plain : '#' ∉ f := hf.1.not_mem (isNameChar_reserved (by decide))
    refine ⟨_, fun rest _ => ?_, .call i j hf derived⟩
    simp only [List.append_assoc, List.cons_append, List.nil_append]
    rw [inlined_append plain, inlined_cons (by decide), inlined_blanks,
      becomes _ (closed_cons j (.inl rfl)), inlined_blanks, inlined_cons (by decide)]

theorem arguments_inlined (hr : Source replacement e₁) : ∀ {s : List Char} {es : List Expr},
    Arguments Expression s es → ∃ s', (∀ rest, Closed rest →
      inlined name replacement false (s ++ rest) = s' ++ inlined name replacement false rest) ∧
      Arguments Expression s' (Expr.inlineAll (String.ofList name) e₁.group es)
  | _, _, .none => ⟨[], fun _ _ => rfl, .none⟩
  | _, _, .some he hes => by
    obtain ⟨s', first, he'⟩ := expression_inlined hr he
    obtain ⟨t', further, hes'⟩ := furtherArguments_inlined hr hes
    refine ⟨s' ++ t', fun rest closed => ?_, .some he' hes'⟩
    rw [List.append_assoc, first _ (hes.closed closed).separated, further rest closed,
      List.append_assoc]

theorem furtherArguments_inlined (hr : Source replacement e₁) :
    ∀ {s : List Char} {es : List Expr}, FurtherArguments Expression s es →
      ∃ s', (∀ rest, Closed rest →
        inlined name replacement false (s ++ rest) = s' ++ inlined name replacement false rest) ∧
        FurtherArguments Expression s' (Expr.inlineAll (String.ofList name) e₁.group es)
  | _, _, .nil => ⟨[], fun _ _ => rfl, .nil⟩
  | _, _, .cons i j he hes => by
    obtain ⟨s', first, he'⟩ := expression_inlined hr he
    obtain ⟨t', further, hes'⟩ := furtherArguments_inlined hr hes
    refine ⟨_, fun rest closed => ?_, .cons i j he' hes'⟩
    simp only [List.append_assoc, List.cons_append]
    rw [inlined_blanks, inlined_cons (by decide), inlined_blanks,
      first _ (hes.closed closed).separated, further rest closed]
end

theorem source_inlined {s : List Char} {e : Expr} (hr : Source replacement e₁) (h : Source s e) :
    Source (inlined name replacement false s)
      (Expr.inline (String.ofList name) e₁.group e) := by
  cases h with
  | mk i j he =>
    obtain ⟨s', becomes, derived⟩ := expression_inlined hr he
    rw [inlined_blanks, becomes _ (closed_blanks j).separated]
    have last := @inlined_blanks _ name replacement [] j
    rw [List.append_nil, inlined, List.append_nil] at last
    rw [last]
    exact .mk i j derived

end Derivations

/-- A source with another one written out for a name reads as its tree with that of the other, in
parentheses, in place of the variable. -/
theorem read?_inlineText [Alphabet] {name replacement text : String} {e e₁ : Expr}
    (hr : Expr.read? replacement = .ok e₁) (h : Expr.read? text = .ok e) :
    Expr.read? (inlineText name replacement text) = .ok (Expr.inline name e₁.group e) := by
  have derived : Source (inlined name.toList replacement.toList false text.toList)
      (Expr.inline (String.ofList name.toList) e₁.group e) :=
    source_inlined (source_of_read? hr) (source_of_read? h)
  rw [String.ofList_toList] at derived
  refine read?_of_source ?_
  rwa [inlineText, String.toList_ofList]

/-- Other names that start in the same way stay as they are. -/
example : inlineText "x" " 1+2" "#x * f(#xy,#x)-v[ #x_ ]" =
    "( 1+2) * f(#xy,( 1+2))-v[ #x_ ]" := by
  decide +kernel

end Reckoner.Grammar
