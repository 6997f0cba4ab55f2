import Reckoner.Proofs.Session.Names
import Reckoner.Text.Letter

/-!
# Definitions as lines

Definitions and lines that bind names are taken apart in two places. A definition is cut at its
first equals sign as it stands, and its name is checked; of a line the blanks at its ends and the
command go first, and any name will do. Where a definition is accepted, the two bind the same name
to the same value if there are the same random numbers to draw: what a line loses are spaces behind
the source, and those have no part in its tree. Both leave the same random numbers to what follows.
-/

namespace Reckoner

variable {debug : Bool} (debug' : Bool) {vars vars' : Variables} {draws draws' : Draws}
  {text : String} {texts : List String}

section

variable [Alphabet]

/-- An accepted definition is bound by its line as well, in a session with the same variables and
the same random numbers. -/
theorem answer_of_define (h : (define debug vars text draws).2 = .ok (vars', draws')) :
    (Session.answer debug' vars (":let " ++ text) draws).vars = vars' ∧
      (Session.answer debug' vars (":let " ++ text) draws).draws = draws' ∧
      ∀ bound left, (Session.answer debug' bound (":let " ++ text) left).more = true := by
  obtain ⟨spelt, source, value, parts, definable, outcome, rfl, rfl⟩ := define_eq_ok h
  have named : spelt ≠ [] := by
    rintro rfl
    cases definable
  obtain ⟨e, read, -⟩ := interpret_eq_ok outcome
  obtain ⟨set, left⟩ := Session.answer_let parts named outcome
  exact ⟨set, left, fun bound left => Session.more_answer_let parts named read⟩

/-- Definitions that are accepted, and the same definitions entered as lines of a session, end with
the same variables when they start with the same, or without any, and draw the same random numbers:
the same names with the same values in the same order. They leave the same random numbers, too. None
of the lines ends the session, whatever it has bound and whatever there is to draw. -/
theorem definitions_as_lines (h : (defineAll debug vars draws texts).2 = .ok (vars', draws')) :
    Session.after debug' vars draws (texts.map (":let " ++ ·)) = (vars', draws') ∧
      ∀ text ∈ texts, ∀ bound left,
        (Session.answer debug' bound (":let " ++ text) left).more = true := by
  induction texts generalizing vars draws with
  | nil => exact ⟨Except.ok.inj h, List.forall_mem_nil _⟩
  | cons text texts ih =>
    obtain ⟨vars₁, draws₁, one, others⟩ := defineAll_cons_eq_ok h
    obtain ⟨first, left, more⟩ := answer_of_define debug' one
    obtain ⟨rest, mores⟩ := ih others
    refine ⟨?_, List.forall_mem_cons.mpr ⟨more, mores⟩⟩
    rw [List.map_cons, Session.after, first, left]
    exact rest

end

/-- A name that is bound again keeps its place, and the second number is drawn behind the first. -/
theorem definitions_as_lines_again :
    let draws : Draws := fun place => if place = 0 then 0x10000000000000#53 else 0x8000000000000#53
    let bound : Variables := [("x", 1.25), ("y", 1.5)]
    ∃ draws', (defineAll false [] draws ["x=rand()", " ##y = #x * 3  ", "#x = #y-rand()"]).2 =
        .ok (bound, draws') ∧
      Session.after true [] draws [":let x=rand()", ":let  ##y = #x * 3  ", ":let #x = #y-rand()"] =
        (bound, draws') := by
  intro draws bound
  obtain ⟨draws', accepted⟩ : ∃ draws', (defineAll false [] draws
      ["x=rand()", " ##y = #x * 3  ", "#x = #y-rand()"]).2 = .ok (bound, draws') :=
    exists_draws_of_vars (by decide +kernel)
  exact ⟨draws', accepted, (definitions_as_lines true accepted).1⟩

end Reckoner
