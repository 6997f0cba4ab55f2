import Mathlib.Data.List.TakeWhile
import Reckoner.Text.Index
import Reckoner.Text.Position

/-!
# Places along a text

A place moves over one piece of text and then another as it moves over both at once. Where a text is
split into the part `before` a place and the part `ahead` of it, looking up a character or a piece
of text at the place is looking at the front of what is ahead.
-/

namespace Reckoner

namespace PositionLemmas

theorem ne_break_of_mem_reverse {text : List Char} (h : '\n' ∉ text) :
    ∀ c ∈ text.reverse, decide (c ≠ '\n') = true := by
  intro c hc
  have : c ≠ '\n' := fun he => h (by rw [← he]; exact List.mem_reverse.mp hc)
  simpa using this

theorem lastLine_of_noBreak {text : List Char} (h : '\n' ∉ text) : lastLine text = text := by
  rw [lastLine, List.takeWhile_eq_self_iff.mpr (ne_break_of_mem_reverse h), List.reverse_reverse]

theorem lastLine_append_of_noBreak {a b : List Char} (h : '\n' ∉ b) :
    lastLine (a ++ b) = lastLine a ++ b := by
  rw [lastLine, lastLine, List.reverse_append,
    List.takeWhile_append_of_pos (ne_break_of_mem_reverse h), List.reverse_append,
    List.reverse_reverse]

theorem lastLine_append_of_break {a b : List Char} (h : '\n' ∈ b) :
    lastLine (a ++ b) = lastLine b := by
  have stops : (b.reverse.takeWhile (· ≠ '\n')).length ≠ b.reverse.length := by
    intro he
    have all := List.takeWhile_eq_self_iff.mp
      ((List.takeWhile_prefix _).sublist.eq_of_length he)
    simpa using all '\n' (List.mem_reverse.mpr h)
  rw [lastLine, lastLine, List.reverse_append, List.takeWhile_append, if_neg stops]

theorem pos_count_of_break {text : List Char} (h : '\n' ∈ text) :
    (0 : Int) < (text.count '\n' : Int) :=
  Int.natCast_pos.mpr (List.count_pos_iff.mpr h)

theorem count_of_noBreak {text : List Char} (h : '\n' ∉ text) : text.count '\n' = 0 :=
  List.count_eq_zero.mpr h

end PositionLemmas

open PositionLemmas

namespace Position

variable (p : Position)

theorem after_index (text : List Char) : (p.after text).index = p.index + text.length := rfl

theorem after_row (text : List Char) : (p.after text).row = p.row + text.count '\n' := rfl

theorem after_column_of_break {text : List Char} (h : '\n' ∈ text) :
    (p.after text).column = 1 + (lastLine text).length :=
  if_pos (pos_count_of_break h)

theorem after_column_of_noBreak {text : List Char} (h : '\n' ∉ text) :
    (p.after text).column = p.column + text.length := by
  have none : ¬ (0 : Int) < (text.count '\n' : Int) := by rw [count_of_noBreak h]; decide
  rw [← congrArg List.length (lastLine_of_noBreak h)]
  exact if_neg none

attribute [ext] Position

@[simp]
theorem after_nil : p.after [] = p := by
  ext
  · simp [after_index]
  · simp [after_row]
  · simp [after_column_of_noBreak]

/-- Moving over two pieces of text one after the other is moving over both. -/
theorem after_append (a b : List Char) : (p.after a).after b = p.after (a ++ b) := by
  ext
  · simp only [after_index, List.length_append]
    omega
  · simp only [after_row, List.count_append]
    omega
  · by_cases hb : '\n' ∈ b
    · rw [after_column_of_break _ hb, after_column_of_break p (List.mem_append_right a hb),
        lastLine_append_of_break hb]
    · rw [after_column_of_noBreak _ hb]
      by_cases ha : '\n' ∈ a
      · rw [after_column_of_break p ha, after_column_of_break p (List.mem_append_left b ha),
          lastLine_append_of_noBreak hb, List.length_append]
        omega
      · have hab : '\n' ∉ a ++ b := by simp [ha, hb]
        rw [after_column_of_noBreak p ha, after_column_of_noBreak p hab, List.length_append]
        omega

@[simp]
theorem index_start_after (before : List Char) : (start.after before).index = before.length := by
  rw [after_index]
  exact Int.zero_add _

end Position

/-! ## What lies ahead of a place -/

variable (before ahead : List Char)

/-- The character at a place is the first one ahead. -/
@[simp]
theorem charAt?_after :
    charAt? (before ++ ahead) (Position.start.after before).index = ahead.head? := by
  rw [Position.index_start_after, charAt?_natCast, List.getElem?_append_right (Nat.le_refl _),
    Nat.sub_self, List.head?_eq_getElem?]

/-- A piece of text is found at a place when what is ahead starts with it. -/
@[simp]
theorem hasAt_after (pattern : List Char) :
    hasAt (before ++ ahead) pattern (Position.start.after before).index =
      pattern.isPrefixOf ahead := by
  have inside : (before.length : Int) ≤ (before ++ ahead).length := by
    rw [List.length_append]
    omega
  have cut : cutPoint (before ++ ahead) before.length = before.length := by simp [cutPoint]
  rw [Position.index_start_after, hasAt, cut, List.drop_left, decide_eq_true inside,
    Bool.true_and]

end Reckoner
