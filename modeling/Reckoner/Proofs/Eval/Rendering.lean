import Reckoner.Proofs.Eval.Draws
import Reckoner.Proofs.Grammar.RoundTrip
import Reckoner.Text.Letter

/-!
# The text of an expression keeps its meaning

The text of an expression has all its parentheses and shows every number to the last bit, but a zero
without its sign. So it evaluates as the expression does once its zeros have no signs: with the same
value or error, the same questions to the host, the same draws and the same trace. Division tells
the two zeros apart, so an expression in which a zero has a minus may evaluate to something else.
-/

namespace Reckoner

open Reckoner.Grammar

namespace Expr

mutual
/-- The numbers in an expression, from left to right. -/
def numbers : Expr → List Float
  | number x => [x]
  | var _ | foreign _ => []
  | external index => index.numbers
  | call _ args => allNumbers args
  | binary _ a b _ => a.numbers ++ b.numbers

/-- The numbers in the listed expressions. -/
def allNumbers : List Expr → List Float
  | [] => []
  | a :: args => a.numbers ++ allNumbers args
end

mutual
/-- An expression, its zeros without their signs. -/
def unsigned : Expr → Expr
  | number x => number (unsignedZero x)
  | var name => var name
  | external index => external index.unsigned
  | call name args => call name (allUnsigned args)
  | binary symbol a b grouped => binary symbol a.unsigned b.unsigned grouped
  | foreign v => foreign v

/-- The listed expressions, their zeros without their signs. -/
def allUnsigned : List Expr → List Expr
  | [] => []
  | a :: args => a.unsigned :: allUnsigned args
end

mutual
theorem unsigned_of_not_mem : ∀ e : Expr, -0.0 ∉ e.numbers → e.unsigned = e
  | number x, h => by
    rw [unsigned, unsignedZero_of_ne]
    rintro rfl
    exact h List.mem_cons_self
  | var _, _ | foreign _, _ => rfl
  | external index, h => by rw [unsigned, unsigned_of_not_mem index h]
  | call _ args, h => by rw [unsigned, allUnsigned_of_not_mem args h]
  | binary _ a b _, h => by
    obtain ⟨left, right⟩ := not_or.mp (mt List.mem_append.mpr h)
    rw [unsigned, unsigned_of_not_mem a left, unsigned_of_not_mem b right]

theorem allUnsigned_of_not_mem : ∀ args : List Expr, -0.0 ∉ allNumbers args →
    allUnsigned args = args
  | [], _ => rfl
  | a :: args, h => by
    obtain ⟨first, further⟩ := not_or.mp (mt List.mem_append.mpr h)
    rw [allUnsigned, unsigned_of_not_mem a first, allUnsigned_of_not_mem args further]
end

variable (debug : Bool) (env : Environment)

mutual
/-- Evaluation does not see parentheses. -/
theorem evaluate_written : ∀ e : Expr,
    e.written.evaluate debug env = e.unsigned.evaluate debug env
  | number _ | var _ | foreign _ => rfl
  | external index => by
    rw [written, unsigned, evaluate, evaluate, evaluate_written index]
  | call _ args => by
    rw [written, unsigned, evaluate, evaluate, evaluateAll_allWritten args]
  | binary _ a b _ => by
    rw [written, unsigned, evaluate, evaluate, evaluate_written a, evaluate_written b]

theorem evaluateAll_allWritten : ∀ args : List Expr,
    evaluateAll debug env (allWritten args) = evaluateAll debug env (allUnsigned args)
  | [] => rfl
  | a :: args => by
    rw [allWritten, allUnsigned, evaluateAll, evaluateAll, evaluate_written a,
      evaluateAll_allWritten args]
end

end Expr

namespace Grammar

/-- The text of an expression that was read can be read, and evaluates in every environment,
whatever there is to draw, as the expression does when its zeros have no signs. If no zero in it has
a minus, that is the expression itself. -/
theorem source_evaluates_alike [Alphabet] {s : String} {e : Expr} (h : Expr.read? s = .ok e) :
    ∃ text e', e.source? = some text ∧ Expr.read? text = .ok e' ∧
      (∀ debug env, e'.evaluate debug env = e.unsigned.evaluate debug env) ∧
      (-0.0 ∉ e.numbers → ∀ debug env, e'.evaluate debug env = e.evaluate debug env) := by
  have printable := printable_source (source_of_read? h)
  refine ⟨e.source, e.written, source?_of_printable printable, read?_source printable,
    fun debug env => e.evaluate_written debug env, fun signs debug env => ?_⟩
  rw [e.evaluate_written, e.unsigned_of_not_mem signs]

/-- A reference divided by a number that is too large for a double. -/
theorem source_evaluates_alike_quotient :
    Expr.read? "v[.5] / -1e400" =
        .ok (.binary "/" (.external (.number 0.5)) (.number (-1.0 / 0.0)) false) ∧
      ∃ e', Expr.read? "(v[0.5] / -1e999)" = .ok e' ∧ ∀ debug env, e'.evaluate debug env =
        (Expr.binary "/" (.external (.number 0.5)) (.number (-1.0 / 0.0)) false).evaluate
          debug env := by
  have read : Expr.read? "v[.5] / -1e400" =
      .ok (.binary "/" (.external (.number 0.5)) (.number (-1.0 / 0.0)) false) := by
    decide +kernel
  obtain ⟨text, e', written, again, -, alike⟩ := source_evaluates_alike read
  have source : text = "(v[0.5] / -1e999)" := by
    refine Option.some.inj (written.symm.trans ?_)
    decide +kernel
  have signs : ¬(-0.0 : Float) = 0.5 ∧ ¬(-0.0 : Float) = -1.0 / 0.0 := by decide +kernel
  rw [source] at again
  exact ⟨read, e', again, alike (by simpa [Expr.numbers] using signs)⟩

/-- The quotient by a negative zero is written as a quotient by zero, which has another value,
whatever there is to draw. -/
theorem source_of_negative_zero :
    ∃ e e', Expr.read? "1 / -0" = .ok e ∧ e.source? = some "(1 / 0)" ∧
      Expr.read? "(1 / 0)" = .ok e' ∧
      ∀ draws, (e.evaluate false {} draws).outcome = .ok (-1.0 / 0.0) ∧
        (e'.evaluate false {} draws).outcome = .ok (1.0 / 0.0) ∧
        (e'.evaluate false {} draws).outcome ≠ (e.evaluate false {} draws).outcome := by
  refine ⟨.binary "/" (.number 1.0) (.number (-0.0)) false,
    .binary "/" (.number 1.0) (.number 0.0) true, by decide +kernel, by decide +kernel,
    by decide +kernel, fun draws => ?_⟩
  rw [(Expr.still_evaluate (.binary "/" (.number 1.0) (.number (-0.0)) false) rfl).outcome
      (fun _ => 0) draws,
    (Expr.still_evaluate (.binary "/" (.number 1.0) (.number 0.0) true) rfl).outcome
      (fun _ => 0) draws]
  decide +kernel

end Grammar

end Reckoner
