import Reckoner.Proofs.Grammar.Exactness
import Reckoner.Proofs.Grammar.Precedence
import Reckoner.Proofs.Number.ReadBack
import Reckoner.Text.Letter

/-!
# What is written reads back

`Expr.source` writes each node as an operand of the grammar, with every operation in parentheses. An
operand is read as it stands: attaching to an operand in parentheses, or to any other one that is
not an open operation, makes the operation itself and moves nothing. So the text of an expression
reads back as `Expr.written`.
-/

namespace Reckoner

open Reckoner.Grammar

namespace Expr

mutual
/-- The expression that the text of an expression stands for: every operation is in parentheses, and
zeros have no sign. -/
def written : Expr → Expr
  | number x => number (unsignedZero x)
  | var name => var name
  | external index => external index.written
  | call name args => call name (allWritten args)
  | binary symbol a b _ => binary symbol a.written b.written true
  | foreign v => foreign v

/-- What the texts of the listed expressions stand for. -/
def allWritten : List Expr → List Expr
  | [] => []
  | a :: args => a.written :: allWritten args
end

mutual
theorem source_written : ∀ e : Expr, e.written.source = e.source
  | number _ => numeralText_unsignedZero
  | var _ | foreign _ => rfl
  | external index => by rw [written, source, source, source_written index]
  | call _ args => by rw [written, source, source, sources_written args]
  | binary _ a b _ => by rw [written, source, source, source_written a, source_written b]

theorem sources_written : ∀ args : List Expr, sources (allWritten args) = sources args
  | [] => rfl
  | a :: args => by rw [allWritten, sources, sources, source_written a, sources_written args]
end

variable [Alphabet]

mutual
/-- The expressions that have a source: numbers are numbers, signs are those of operations, and
names are names of the grammar. -/
def Printable : Expr → Prop
  | number x => x.isNaN = false
  | var name => IsName name.toList
  | external index => index.Printable
  | call f args => IsFunctionName f.toList ∧ AllPrintable args
  | binary s a b _ => (∃ o : Operation, o.symbol = s) ∧ a.Printable ∧ b.Printable
  | foreign _ => False

/-- The listed expressions have sources. -/
def AllPrintable : List Expr → Prop
  | [] => True
  | a :: args => a.Printable ∧ AllPrintable args
end

mutual
theorem written_same : ∀ e : Expr, e.Printable → e.written.same e = true
  | number _, h => unsignedZero_beq h
  | var _, _ => by simp [written, same]
  | external index, h => written_same index h
  | call _ args, h => by simp [written, same, allWritten_same args h.2]
  | binary _ a b _, h => by simp [written, same, written_same a h.2.1, written_same b h.2.2]
  | foreign _, h => h.elim

theorem allWritten_same : ∀ args : List Expr, AllPrintable args →
    sameAll (allWritten args) args = true
  | [], _ => rfl
  | a :: args, h => by simp [allWritten, sameAll, written_same a h.1, allWritten_same args h.2]
end

end Expr

namespace Grammar

theorem attach_closed {a b : Expr} (o : Operation) (hb : b.isOpen = false) :
    a.attach o b = .binary o.symbol a b false := by
  rw [Expr.attach, Expr.attach?_closed hb, Option.getD_some]

theorem toList_intercalate_cons (text : String) (texts : List String) :
    (String.intercalate ", " (text :: texts)).toList =
      text.toList ++ texts.flatMap fun t => ", ".toList ++ t.toList := by
  induction texts generalizing text with
  | nil => simp
  | cons t texts ih =>
    rw [String.intercalate_cons_cons, String.toList_append, String.toList_append, ih,
      List.flatMap_cons, List.append_assoc, List.append_assoc]

section

variable [Alphabet]

theorem operand_binary {s t : List Char} {a b : Expr} (o : Operation) (ha : Operand s a)
    (hb : Operand t b) :
    Operand ('(' :: (s ++ ' ' :: (o.symbol.toList ++ ' ' :: (t ++ [')']))))
      (.binary o.symbol a b true) := by
  have inside := Expression.operation 1 1 o ha (.operand hb)
  rw [attach_closed o hb.isOpen_eq] at inside
  have whole := Operand.group 0 0 inside
  simpa [Expr.group] using whole

mutual
/-- The text of an expression is an operand. -/
theorem operand_source : ∀ e : Expr, e.Printable → Operand e.source.toList e.written
  | .number _, h => .number (number_numeralText h)
  | .var name, h => by
    have derived := Operand.var h
    rw [String.ofList_toList] at derived
    rw [Expr.source, String.toList_append]
    exact derived
  | .external index, h => by
    have whole := Operand.reference 0 0 (.operand (operand_source index h))
    simpa [Expr.source, Expr.written] using whole
  | .call f args, h => by
    have whole := Operand.call 0 0 h.1 (arguments_sources args h.2)
    rw [String.ofList_toList] at whole
    simpa [Expr.source, Expr.written] using whole
  | .binary s a b g, h => by
    obtain ⟨⟨o, rfl⟩, ha, hb⟩ := h
    have whole := operand_binary o (operand_source a ha) (operand_source b hb)
    simpa [Expr.source, Expr.written] using whole
  | .foreign _, h => h.elim

theorem arguments_sources : ∀ args : List Expr, Expr.AllPrintable args →
    Arguments Expression (String.intercalate ", " (Expr.sources args)).toList
      (Expr.allWritten args)
  | [], _ => by simpa [Expr.sources, Expr.allWritten] using Arguments.none
  | a :: args, h => by
    rw [Expr.sources, toList_intercalate_cons]
    exact .some (.operand (operand_source a h.1)) (furtherArguments_sources args h.2)

theorem furtherArguments_sources : ∀ args : List Expr, Expr.AllPrintable args →
    FurtherArguments Expression
      ((Expr.sources args).flatMap fun text => ", ".toList ++ text.toList) (Expr.allWritten args)
  | [], _ => .nil
  | a :: args, h => by
    have whole := FurtherArguments.cons 0 1 (.operand (operand_source a h.1))
      (furtherArguments_sources args h.2)
    simpa [Expr.sources, Expr.allWritten] using whole
end

theorem exists_operand (e : Expr) (h : e.Printable) :
    ∃ e', Operand e.source.toList e' ∧ e'.same e = true ∧ e'.source = e.source :=
  ⟨e.written, operand_source e h, e.written_same h, e.source_written⟩

theorem read?_source {e : Expr} (h : e.Printable) : Expr.read? e.source = .ok e.written := by
  have whole : Source e.source.toList e.written := by
    simpa using Source.mk 0 0 (.operand (operand_source e h))
  exact read?_of_source whole

/-! ## What is read can be written -/

theorem printable_attach? {s : String} {a r e : Expr} (hs : ∃ o : Operation, o.symbol = s)
    (ha : a.Printable) (hr : r.Printable) (h : Expr.attach? s a r = some e) : e.Printable := by
  induction r using Expr.attach?.induct generalizing e with
  | case1 t l r ih =>
    obtain ⟨ht, hl, hr⟩ := hr
    rw [Expr.attach?] at h
    simp only [Option.bind_eq_bind, Option.bind_eq_some_iff] at h
    obtain ⟨first, -, h⟩ := h
    cases first with
    -- attaching goes on in the left operand and leaves the operation and the right one in place
    | true =>
      simp only [if_true, Option.bind_eq_some_iff] at h
      obtain ⟨l', attached, made⟩ := h
      cases made
      exact ⟨ht, ih hl attached, hr⟩
    | false =>
      cases h
      exact ⟨hs, ha, ht, hl, hr⟩
  | case2 r other =>
    rw [Expr.attach?_closed (Expr.isOpen_eq_false other)] at h
    cases h
    exact ⟨hs, ha, hr⟩

theorem printable_attach {a e : Expr} (o : Operation) (ha : a.Printable) (he : e.Printable) :
    (a.attach o e).Printable := by
  unfold Expr.attach
  cases attached : Expr.attach? o.symbol a e with
  | none => exact ⟨⟨o, rfl⟩, ha, he⟩
  | some t => exact printable_attach? ⟨o, rfl⟩ ha he attached

theorem printable_group {e : Expr} (h : e.Printable) : e.group.Printable := by
  cases e <;> exact h

mutual
theorem printable_expression : ∀ {s : List Char} {e : Expr}, Expression s e → e.Printable
  | _, _, .operand ha => printable_operand ha
  | _, _, .operation _ _ o ha he =>
    printable_attach o (printable_operand ha) (printable_expression he)

theorem printable_operand : ∀ {s : List Char} {a : Expr}, Operand s a → a.Printable
  | _, _, .group _ _ he => printable_group (printable_expression he)
  | _, _, .number h => isNaN_of_number h
  | _, _, .var h => by
    rw [Expr.Printable, String.toList_ofList]
    exact h
  | _, _, .reference i j he => by
    rw [Expr.Printable]
    exact printable_expression he
  | _, _, .call i j hf hs => by
    rw [Expr.Printable, String.toList_ofList]
    exact ⟨hf, printable_arguments hs⟩

theorem printable_arguments : ∀ {s : List Char} {es : List Expr}, Arguments Expression s es →
    Expr.AllPrintable es
  | _, _, .none => trivial
  | _, _, .some he hs => ⟨printable_expression he, printable_furtherArguments hs⟩

theorem printable_furtherArguments : ∀ {s : List Char} {es : List Expr},
    FurtherArguments Expression s es → Expr.AllPrintable es
  | _, _, .nil => trivial
  | _, _, .cons _ _ he hs => ⟨printable_expression he, printable_furtherArguments hs⟩
end

/-! ## The round trip -/

mutual
theorem isNative_of_printable : ∀ e : Expr, e.Printable → e.isNative = true
  | .number _, _ => rfl
  | .var _, _ => rfl
  | .external index, h => isNative_of_printable index h
  | .call _ args, h => allNative_of_printable args h.2
  | .binary _ a b _, h => by
    rw [Expr.isNative, isNative_of_printable a h.2.1, isNative_of_printable b h.2.2]
    rfl
  | .foreign _, h => h.elim

theorem allNative_of_printable : ∀ args : List Expr, Expr.AllPrintable args →
    Expr.allNative args = true
  | [], _ => rfl
  | a :: args, h => by
    rw [Expr.allNative, isNative_of_printable a h.1, allNative_of_printable args h.2]
    rfl
end

theorem source?_of_printable {e : Expr} (h : e.Printable) : e.source? = some e.source := by
  unfold Expr.source?
  rw [if_pos (isNative_of_printable e h)]

theorem printable_source {text : List Char} {e : Expr} (h : Source text e) : e.Printable := by
  cases h with
  | mk i j derived => exact printable_expression derived

/-- Every expression with a source reads back as the same expression, up to parentheses and the sign
of zero, and is then written in the same way. What is read has a source. -/
theorem source_round_trip :
    (∀ e : Expr, e.Printable → ∃ text, e.source? = some text ∧ ∃ e', Expr.read? text = .ok e' ∧
      e'.same e = true ∧ e'.source? = some text) ∧
      ∀ s e, Expr.read? s = .ok e → e.Printable := by
  refine ⟨fun e h => ⟨e.source, source?_of_printable h, ?_⟩, fun s e h =>
    printable_source (source_of_read? h)⟩
  obtain ⟨e', derived, same, text⟩ := exists_operand e h
  have whole : Source e.source.toList e' := by simpa using Source.mk 0 0 (.operand derived)
  refine ⟨e', read?_of_source whole, same, ?_⟩
  rw [source?_of_printable (printable_operand derived), text]

end

/-- A product of a negative zero and a call with an infinity among its arguments. -/
theorem source_round_trip_product :
    (Expr.binary "*" (.number (-0.0))
        (.call "f" [.var "x_1", .number (1.0 / 0.0)]) false).Printable ∧
      ∃ e', Expr.read? "(0 * f(#x_1, 1e999))" = .ok e' ∧
        e'.same (.binary "*" (.number (-0.0)) (.call "f" [.var "x_1", .number (1.0 / 0.0)]) false) ∧
        e'.source? = some "(0 * f(#x_1, 1e999))" := by
  have printable : (Expr.binary "*" (.number (-0.0))
      (.call "f" [.var "x_1", .number (1.0 / 0.0)]) false).Printable := by
    have f : IsFunctionName "f".toList :=
      ⟨⟨by decide, List.all_eq_true.mp (by decide +kernel)⟩, by rintro c ⟨⟩; decide⟩
    have x : IsName "x_1".toList := ⟨by decide, List.all_eq_true.mp (by decide +kernel)⟩
    have zero : (-0.0 : Float).isNaN = false := by decide +kernel
    have infinity : (1.0 / 0.0 : Float).isNaN = false := by decide +kernel
    exact ⟨⟨.mul, rfl⟩, zero, f, x, infinity, trivial⟩
  obtain ⟨text, written, e', read, same, again⟩ := source_round_trip.1 _ printable
  have source : text = "(0 * f(#x_1, 1e999))" := by
    refine Option.some.inj (written.symm.trans ?_)
    decide +kernel
  rw [source] at read again
  exact ⟨printable, e', read, same, again⟩

end Grammar

end Reckoner
