import Reckoner.Proofs.Text.Lines
import Reckoner.Proofs.Text.Position

/-!
# Places over the pieces of a text

A text moves a place by its characters, by one row for every line but the last, and by the
characters of the last line. Texts act on places in this way: however a text is cut into pieces,
moving over the pieces one after the other is moving over the text.
-/

namespace Reckoner

variable {mark : Char} {text : List Char}

/-! ## Lines -/

theorem splitAt_ne_nil (mark : Char) (text : List Char) : splitAt mark text ≠ [] := by
  cases text with
  | nil => exact List.cons_ne_nil _ _
  | cons c rest =>
    unfold splitAt
    split
    · exact List.cons_ne_nil _ _
    · split
      · exact List.cons_ne_nil _ _
      · exact List.cons_ne_nil _ _

theorem splitAt_of_not_mem (h : mark ∉ text) : splitAt mark text = [text] := by
  induction text with
  | nil => rfl
  | cons c rest ih =>
    rw [List.mem_cons, not_or] at h
    rw [splitAt, if_neg (Ne.symm h.1), ih h.2]

theorem lastLine_append_break (a b : List Char) : lastLine (a ++ '\n' :: b) = lastLine b := by
  rw [PositionLemmas.lastLine_append_of_break List.mem_cons_self]
  by_cases broken : '\n' ∈ b
  · exact PositionLemmas.lastLine_append_of_break broken (a := ['\n'])
  · rw [PositionLemmas.lastLine_of_noBreak broken]
    exact PositionLemmas.lastLine_append_of_noBreak broken (a := ['\n'])

/-- A text has one line more than line breaks, and its last line is what follows the last break. -/
theorem splitAt_break (text : List Char) :
    (splitAt '\n' text).length = text.count '\n' + 1 ∧
      (splitAt '\n' text).getLast? = some (lastLine text) := by
  -- a text with a break is its first line and a text with one break less
  induction breaks : text.count '\n' generalizing text with
  | zero =>
    have unbroken := List.count_eq_zero.mp breaks
    rw [splitAt_of_not_mem unbroken, PositionLemmas.lastLine_of_noBreak unbroken]
    exact ⟨rfl, rfl⟩
  | succ n ih =>
    have broken : '\n' ∈ text := List.count_pos_iff.mp (breaks ▸ Nat.succ_pos n)
    obtain ⟨line, rest, rfl, unbroken⟩ := List.eq_append_cons_of_mem broken
    rw [List.count_append, List.count_eq_zero.mpr unbroken, Nat.zero_add,
      List.count_cons_self] at breaks
    obtain ⟨size, last⟩ := ih rest (Nat.succ.inj breaks)
    rw [splitAt_append unbroken, lastLine_append_break, List.length_cons, size,
      List.getLast?_cons_of_ne_nil (splitAt_ne_nil _ _), last]
    exact ⟨rfl, rfl⟩

/-- A text moves a place by its characters, by a row for every line but the last, and by the
characters of the last line. -/
theorem over_eq (text : List Char) :
    Shift.over text = ⟨text.length, ((splitAt '\n' text).length : Int) - 1,
      ((splitAt '\n' text).getLastD []).length⟩ := by
  obtain ⟨size, last⟩ := splitAt_break text
  rw [List.getLastD_eq_getLast?, last, size, Shift.over]
  simp

/-! ## Pieces -/

/-- Moving over the pieces of a text one after the other is moving over the text. -/
theorem foldl_advance (p : Position) (pieces : List (List Char)) :
    pieces.foldl (fun q piece => q.advance (.over piece)) p = p.advance (.over pieces.flatten) := by
  induction pieces generalizing p with
  | nil => exact (Position.after_nil p).symm
  | cons piece pieces ih =>
    rw [List.foldl_cons, ih, List.flatten_cons]
    exact Position.after_append p piece pieces.flatten

/-- Behind a text the index is further by its characters and the row by its breaks. The column is
further by its characters if it is one line, and counts along its last line if it breaks. -/
theorem after_eq (p : Position) (text : List Char) :
    (p.after text).index = p.index + text.length ∧
      (p.after text).row = p.row + text.count '\n' ∧
      (p.after text).column =
        if '\n' ∈ text then 1 + (((splitAt '\n' text).getLastD []).length : Int)
        else p.column + text.length := by
  refine ⟨p.after_index text, p.after_row text, ?_⟩
  split
  · next broken =>
    rw [p.after_column_of_break broken, List.getLastD_eq_getLast?, (splitAt_break text).2]
    rfl
  · next unbroken => exact p.after_column_of_noBreak unbroken

/-- Texts act on places: moving over one text and then another is moving over both, and moving over
any number of pieces is moving over the text that they make up, from every place. What a text adds
to a place, and where the place is then, is given by its characters and its lines. -/
theorem texts_act_on_places (p : Position) :
    (∀ a b : List Char,
      (p.advance (.over a)).advance (.over b) = p.advance (.over (a ++ b))) ∧
    (∀ pieces : List (List Char),
      pieces.foldl (fun q piece => q.advance (.over piece)) p =
        p.advance (.over pieces.flatten)) ∧
    ∀ text : List Char,
      Shift.over text = ⟨text.length, ((splitAt '\n' text).length : Int) - 1,
        ((splitAt '\n' text).getLastD []).length⟩ ∧
      (p.advance (.over text)).index = p.index + text.length ∧
      (p.advance (.over text)).row = p.row + text.count '\n' ∧
      (p.advance (.over text)).column =
        if '\n' ∈ text then 1 + (((splitAt '\n' text).getLastD []).length : Int)
        else p.column + text.length :=
  ⟨fun a b => Position.after_append p a b, foldl_advance p,
    fun text => ⟨over_eq text, after_eq p text⟩⟩

end Reckoner
