import Reckoner.Proofs.Grammar.Exactness

/-!
# Fronts of sources

A text is viable when some source starts with it. A place `Opens` an expression when every
expression may stand there, completed by one and the same text. The start of a source is such a
place, and so is what follows an opening bracket or an operator at such a place. There all that an
operand can start with is viable, which is what an error says when it names what it expected.
-/

namespace Reckoner.Grammar

open Reckoner.Parser Reckoner.TextParser

theorem isDigits_singleton {d : Char} (hd : d.isDigit = true) : IsDigits [d] :=
  ⟨List.cons_ne_nil d [], fun _ hc => List.mem_singleton.mp hc ▸ hd⟩

variable [Alphabet]

/-- The text is read as a whole. -/
def IsSource (text : List Char) : Prop :=
  ∃ e, Expr.read? (String.ofList text) = .ok e

/-- Some source starts with `front`. -/
def Viable (front : List Char) : Prop :=
  ∃ rest, IsSource (front ++ rest)

/-- Behind `front` something else may stand than what does: the text ends there, or it goes on with
what was expected. -/
inductive Expects (front : List Char) : String → Prop
  | endOfText : IsSource front → Expects front TextError.endMark
  | bracket {c : Char} : c = '(' ∨ c = ')' ∨ c = ']' → Viable (front ++ [c]) →
      Expects front (String.singleton c)
  | number : (∀ d : Char, d.isDigit = true → Viable (front ++ [d])) → Expects front "number"
  | operand : (∀ d : Char, d.isDigit = true → Viable (front ++ [d])) →
      Expects front operandExpected
  | name : (∀ c, isLetter c = true → Viable (front ++ [c])) → Expects front "name"

variable {before front s t : List Char} {a e : Expr}

theorem isSource_iff : IsSource s ↔ ∃ e, Source s e := by
  constructor
  · rintro ⟨e, read⟩
    have derived := source_of_read? read
    rw [String.toList_ofList] at derived
    exact ⟨e, derived⟩
  · rintro ⟨e, derived⟩
    exact ⟨e, read?_of_source (by rwa [String.toList_ofList])⟩

theorem Viable.shorter {rest : List Char} (h : Viable (front ++ rest)) : Viable front := by
  obtain ⟨rest', whole⟩ := h
  exact ⟨rest ++ rest', by rwa [← List.append_assoc]⟩

/-! ## Sources are one line -/

mutual
theorem Expression.noBreak {s : List Char} {e : Expr} : Expression s e → '\n' ∉ s
  | .operand ha => ha.noBreak
  | .operation i j o ha he => by
    simpa using ⟨ha.noBreak, noBreak_symbol o, he.noBreak⟩

theorem Operand.noBreak {s : List Char} {a : Expr} : Operand s a → '\n' ∉ s
  | .group i j he => by simpa using he.noBreak
  | .number hx => hx.not_mem (isNameChar_reserved (by decide)) (by decide)
  | .var hs => by simpa using hs.not_mem (isNameChar_reserved (by decide))
  | .reference i j he => by simpa using he.noBreak
  | .call i j hf hes => by
    simpa using ⟨hf.1.not_mem (isNameChar_reserved (by decide)), hes.noBreak⟩

theorem Arguments.noBreak {s : List Char} {es : List Expr} : Arguments Expression s es → '\n' ∉ s
  | .none => by simp
  | .some he hes => by simpa using ⟨he.noBreak, hes.noBreak⟩

theorem FurtherArguments.noBreak {s : List Char} {es : List Expr} :
    FurtherArguments Expression s es → '\n' ∉ s
  | .nil => by simp
  | .cons i j he hes => by simpa using ⟨he.noBreak, hes.noBreak⟩
end

theorem Source.noBreak (h : Source s e) : '\n' ∉ s := by
  cases h with
  | mk i j he => simpa using he.noBreak

theorem Viable.noBreak (h : Viable front) : '\n' ∉ front := by
  obtain ⟨rest, whole⟩ := h
  obtain ⟨e, derived⟩ := isSource_iff.mp whole
  intro found
  exact derived.noBreak (List.mem_append_left rest found)

/-- What is expected behind a text makes the text viable. -/
theorem Expects.viable {expected : String} (h : Expects front expected) : Viable front := by
  cases h with
  | endOfText whole => exact ⟨[], by rwa [List.append_nil]⟩
  | bracket _ next => exact next.shorter
  | number next => exact (next '0' (by decide)).shorter
  | operand next => exact (next '0' (by decide)).shorter
  | name next => exact (next 'a' (Alphabet.isLetter_of_ascii (by decide))).shorter

/-! ## Places where an expression may stand -/

/-- Every expression may stand behind `before`, with one and the same text after it. -/
def Opens (before : List Char) : Prop :=
  ∃ after, ∀ t e, Expression t e → ∃ e', Source (before ++ (t ++ after)) e'

theorem opens_blanks (i : Nat) : Opens (blanks i) :=
  ⟨[], fun _ e ht => ⟨e, .mk i 0 ht⟩⟩

theorem Opens.viable {rest : List Char} (h : Opens before) (he : Expression s e)
    (split : s = front ++ rest) : Viable (before ++ front) := by
  obtain ⟨after, opens⟩ := h
  refine ⟨rest ++ after, isSource_iff.mpr ?_⟩
  have whole := opens s e he
  rwa [split, List.append_assoc, ← List.append_assoc] at whole

theorem Opens.operand (h : Opens before) (ha : Operand s a) : Viable (before ++ s) :=
  h.viable (.operand ha) (List.append_nil s).symm

theorem Opens.group (h : Opens before) (i : Nat) : Opens (before ++ ('(' :: blanks i)) := by
  obtain ⟨after, opens⟩ := h
  refine ⟨')' :: after, fun t e ht => ?_⟩
  have whole := opens _ _ (.operand (.group i 0 ht))
  simpa using whole

theorem Opens.reference (h : Opens before) (i : Nat) :
    Opens (before ++ ('v' :: '[' :: blanks i)) := by
  obtain ⟨after, opens⟩ := h
  refine ⟨']' :: after, fun t e ht => ?_⟩
  have whole := opens _ _ (.operand (.reference i 0 ht))
  simpa using whole

theorem Opens.operation (h : Opens before) (ha : Operand s a) (i j : Nat) (o : Operation) :
    Opens (before ++ (s ++ (blanks i ++ (o.symbol.toList ++ blanks j)))) := by
  obtain ⟨after, opens⟩ := h
  refine ⟨after, fun t e ht => ?_⟩
  have whole := opens _ _ (.operation i j o ha ht)
  simpa using whole

/-! ## What may stand there -/

theorem Opens.expects_number (h : Opens before) {sg : List Char} {negative : Bool}
    (hs : Sign sg negative) : Expects (before ++ sg) "number" := by
  refine .number fun d hd => ?_
  have number := Number.mk hs (.whole (isDigits_singleton hd)) .absent
  simpa using h.operand (.number number)

theorem Opens.expects_fraction (h : Opens before) {sg : List Char} {negative : Bool}
    (hs : Sign sg negative) : Expects (before ++ (sg ++ ['.'])) "number" := by
  refine .number fun d hd => ?_
  have number := Number.mk hs (.fraction (isDigits_singleton hd)) .absent
  simpa using h.operand (.number number)

theorem Opens.expects_operand (h : Opens before) : Expects before operandExpected := by
  refine .operand fun d hd => ?_
  have number := Number.mk .absent (.whole (isDigits_singleton hd)) .absent
  simpa using h.operand (.number number)

theorem Opens.expects_name (h : Opens before) : Expects (before ++ ['#']) "name" := by
  refine .name fun c hc => ?_
  have named : IsName [c] := by
    refine ⟨List.cons_ne_nil c [], fun d hd => ?_⟩
    rw [List.mem_singleton.mp hd, isNameChar, hc]
    rfl
  simpa using h.operand (.var named)

theorem Opens.expects_arguments (h : Opens before) {f : List Char} (hf : IsFunctionName f) :
    Expects (before ++ f) (String.singleton '(') := by
  have call := Operand.call 0 0 hf .none
  have split : f ++ '(' :: (blanks 0 ++ ([] ++ (blanks 0 ++ [')']))) = (f ++ ['(']) ++ [')'] := by
    simp
  refine .bracket (.inl rfl) ?_
  rw [List.append_assoc]
  exact h.viable (.operand call) split

theorem Opens.expects_close (h : Opens before) {c : Char} (hc : c = ')' ∨ c = ']')
    (ha : Operand (front ++ [c]) a) : Expects (before ++ front) (String.singleton c) := by
  refine .bracket (.inr hc) ?_
  rw [List.append_assoc]
  exact h.operand ha

end Reckoner.Grammar
