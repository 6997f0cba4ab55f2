import Mathlib.Data.List.DropRight
import Reckoner.Text.Blank
import Reckoner.Text.Lines

/-!
# Trimming and cutting

Trimming a text leaves what stands between its blanks, from the first to the last character that is
not blank. A text cut at a mark is put together again from its two parts, of which the first does
not have the mark.
-/

namespace Reckoner

variable {a b s t : List Char} {c mark : Char}

/-! ## Trimming -/

/-- A text starts and ends with a character that is not blank. -/
structure Solid (s : List Char) : Prop where
  head : ∃ c, s.head? = some c ∧ isBlank c = false
  last : ∃ c, s.getLast? = some c ∧ isBlank c = false

theorem trimLeft_of_head (h : ∃ c, s.head? = some c ∧ isBlank c = false) : trimLeft s = s := by
  obtain ⟨c, front, solid⟩ := h
  obtain ⟨rest, rfl⟩ := List.head?_eq_some_iff.mp front
  exact List.dropWhile_cons_of_neg (by simp [solid])

theorem trimRight_of_last (h : ∃ c, s.getLast? = some c ∧ isBlank c = false) :
    trimRight s = s := by
  obtain ⟨c, back, solid⟩ := h
  obtain ⟨front, rfl⟩ := List.getLast?_eq_some_iff.mp back
  exact List.rdropWhile_concat_neg isBlank front c (by simp [solid])

theorem trimLeft_append (h : ∀ c ∈ a, isBlank c = true) : trimLeft (a ++ s) = trimLeft s :=
  List.dropWhile_append_of_pos h

theorem trimRight_append (h : ∀ c ∈ b, isBlank c = true) : trimRight (s ++ b) = trimRight s := by
  unfold trimRight
  rw [List.reverse_append, List.dropWhile_append_of_pos]
  simpa using h

theorem last_append (p : List Char) (h : ∃ c, s.getLast? = some c ∧ isBlank c = false) :
    ∃ c, (p ++ s).getLast? = some c ∧ isBlank c = false := by
  obtain ⟨c, back, solid⟩ := h
  exact ⟨c, by rw [List.getLast?_append, back, Option.some_or], solid⟩

/-- A text between blanks. -/
theorem trim_between (ha : ∀ c ∈ a, isBlank c = true) (h : Solid s)
    (hb : ∀ c ∈ b, isBlank c = true) : trim (a ++ (s ++ b)) = s := by
  obtain ⟨c, front, solid⟩ := h.head
  have front' : ∃ c, (s ++ b).head? = some c ∧ isBlank c = false :=
    ⟨c, by rw [List.head?_append, front, Option.some_or], solid⟩
  rw [trim, trimLeft_append ha, trimLeft_of_head front', trimRight_append hb,
    trimRight_of_last h.last]

theorem trim_append (h : Solid s) (hb : ∀ c ∈ b, isBlank c = true) : trim (s ++ b) = s :=
  trim_between (List.forall_mem_nil _) h hb

/-! ## Cutting -/

theorem cutAt_append (h : mark ∉ a) : cutAt mark (a ++ mark :: b) = (a, some b) := by
  have inside : ∀ c ∈ a, decide (c ≠ mark) = true := fun c mem =>
    decide_eq_true fun same => h (same ▸ mem)
  unfold cutAt
  rw [List.takeWhile_append_of_pos inside, List.dropWhile_append_of_pos inside,
    List.takeWhile_cons_of_neg (by simp), List.dropWhile_cons_of_neg (by simp), List.append_nil]
  rfl

theorem append_of_cutAt (h : cutAt mark s = (a, some b)) : s = a ++ mark :: b ∧ mark ∉ a := by
  obtain ⟨rfl, behind⟩ := Prod.mk.inj h
  constructor
  · cases rest : s.dropWhile (· ≠ mark) with
    | nil =>
      rw [rest] at behind
      cases behind
    | cons c rest' =>
      have stop := List.head?_dropWhile_not (fun c => decide (c ≠ mark)) s
      rw [rest] at behind stop
      cases behind
      obtain rfl : c = mark := by simpa using stop
      rw [← rest, List.takeWhile_append_dropWhile]
  · intro found
    have := List.mem_takeWhile_imp found
    simp at this

end Reckoner
