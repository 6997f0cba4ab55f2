import Mathlib.Data.List.Basic
import Reckoner.Text.Lines

/-!
# Lines put together and read again

A reader takes from a text the lines that it was put together from, as long as none of them has a
line feed of its own.
-/

namespace Reckoner

variable {mark : Char} {a b : List Char} {texts : List String}

/-- A text without a line feed. -/
abbrev OneLine (text : String) : Prop :=
  '\n' ∉ text.toList

theorem OneLine.append {front rest : String} (h : OneLine front) (h' : OneLine rest) :
    OneLine (front ++ rest) := by
  rw [OneLine, String.toList_append, List.mem_append, not_or]
  exact ⟨h, h'⟩

theorem splitAt_append (h : mark ∉ a) :
    splitAt mark (a ++ mark :: b) = a :: splitAt mark b := by
  induction a with
  | nil => rw [List.nil_append, splitAt, if_pos rfl]
  | cons c rest ih =>
    rw [List.mem_cons, not_or] at h
    rw [List.cons_append, splitAt, if_neg (Ne.symm h.1), ih h.2]

theorem unlines_cons (text : String) (texts : List String) :
    (unlines (text :: texts)).toList = text.toList ++ '\n' :: (unlines texts).toList := by
  unfold unlines
  rw [List.map_cons, String.join_cons, String.toList_append, String.toList_append,
    List.append_assoc]
  rfl

theorem splitAt_unlines (h : ∀ text ∈ texts, '\n' ∉ text.toList) :
    splitAt '\n' (unlines texts).toList = texts.map String.toList ++ [[]] := by
  induction texts with
  | nil => rfl
  | cons text texts ih =>
    rw [List.forall_mem_cons] at h
    rw [unlines_cons, splitAt_append h.1, ih h.2]
    rfl

theorem streamLines_unlines (h : ∀ text ∈ texts, '\n' ∉ text.toList) :
    streamLines (unlines texts).toList = texts.map String.toList := by
  unfold streamLines
  dsimp only
  rw [splitAt_unlines h, List.getLast?_concat, if_pos rfl, List.dropLast_concat]

/-- A text is put together from one list of lines only. -/
theorem unlines_inj {others : List String} (h : ∀ text ∈ texts, OneLine text)
    (h' : ∀ text ∈ others, OneLine text) : unlines texts = unlines others ↔ texts = others := by
  refine ⟨fun same => ?_, fun same => by rw [same]⟩
  have lines : texts.map String.toList = others.map String.toList := by
    rw [← streamLines_unlines h, ← streamLines_unlines h', same]
  exact List.map_injective_iff.mpr (fun _ _ => String.toList_injective) lines

end Reckoner
