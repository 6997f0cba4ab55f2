import Reckoner.Expr.Reading
import Reckoner.Proofs.Grammar.Completeness

/-!
# Reading is exact

With the fuel that `Expr.read?` takes, a source never halts, so a run is either a success or a
failure. Soundness says that a success is derived. Completeness says that a derived source is read,
and as a run has one reply, a text has at most one tree.
-/

namespace Reckoner.Grammar

open Reckoner.Parser

variable {text : List Char} {e e' : Expr}

theorem lt_enoughFuel (text : List Char) : text.length < enoughFuel text :=
  Nat.lt_add_of_pos_right Nat.two_pos

variable [Alphabet]

/-- A run on a derived source reads all of it. -/
theorem run_of_source (h : Source text e) :
    source.run (enoughFuel text) text = .success e text (Position.start.after text) :=
  (reads_source h (lt_enoughFuel text)).parse_whole

/-- A text has at most one tree. -/
theorem source_unique (h : Source text e) (h' : Source text e') : e = e' := by
  have same := (run_of_source h).symm.trans (run_of_source h')
  injection same

/-- A run either reads the whole text, which is then derived, or fails at its end. -/
theorem run_source_cases (text : List Char) :
    (∃ e, Source text e) ∨
      ∃ err, source.run (enoughFuel text) text = .failure err text .start := by
  rcases answers_source (lt_enoughFuel text) with
    ⟨piece, rest, e, split, -, rfl, derived⟩ | ⟨err, misses, -⟩
  · rw [List.append_nil] at split
    rw [split]
    exact .inl ⟨e, derived⟩
  · exact .inr ⟨err, misses.parse_whole⟩

theorem read_of_source (h : Source text e) : read text = .ok e := by
  unfold read
  rw [run_of_source h]

theorem read?_of_source {s : String} (h : Source s.toList e) : Expr.read? s = .ok e := by
  unfold Expr.read?
  rw [read_of_source h]

theorem read?_of_run {s : String} {err : TextError} {p : Position}
    (h : source.run (enoughFuel s.toList) s.toList = .failure err s.toList p) :
    Expr.read? s = .error (.ofFailure err p s.toList) := by
  have failed : read s.toList = .error (err, p) := by
    unfold read
    rw [h]
  unfold Expr.read?
  rw [failed]

theorem source_of_read? {s : String} (h : Expr.read? s = .ok e) : Source s.toList e := by
  rcases run_source_cases s.toList with ⟨e', derived⟩ | ⟨err, failed⟩
  · obtain rfl : e' = e := Except.ok.inj ((read?_of_source derived).symm.trans h)
    exact derived
  · rw [read?_of_run failed] at h
    cases h

/-- Reading returns a tree exactly when the text is derived, and then it returns the one tree that
the text has. On every other text the run of the grammar fails, which is what the error says. -/
theorem read?_exact (s : String) :
    (∀ e, Expr.read? s = .ok e ↔ Source s.toList e) ∧
      (∀ e e', Source s.toList e → Source s.toList e' → e = e') ∧
      ((¬ ∃ e, Source s.toList e) → ∃ err p,
        source.run (enoughFuel s.toList) s.toList = .failure err s.toList p ∧
          Expr.read? s = .error (.ofFailure err p s.toList)) := by
  refine ⟨fun e => ⟨source_of_read?, read?_of_source⟩, fun _ _ => source_unique, fun none => ?_⟩
  rcases run_source_cases s.toList with derived | ⟨err, failed⟩
  · exact absurd derived none
  · exact ⟨err, .start, failed, read?_of_run failed⟩

end Reckoner.Grammar
