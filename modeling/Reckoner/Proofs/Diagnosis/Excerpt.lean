import Mathlib.Data.List.Basic
import Reckoner.Diagnosis.Excerpt

/-!
# What an excerpt shows

For a line of the text the excerpt is a window of lines, cut off at the ends of the text, with the
caret line put in behind the line itself. The caret line is indented as the lines are up to the
number 9999. Greater numbers are wider than their padding, and push the text away from the caret.
-/

namespace Reckoner

/-- The line of a text with a number, counted from 1. -/
def lineAt (source : List Char) (number : Nat) : List Char :=
  (splitAt '\n' source).getD (number - 1) []

/-- A line as it is shown, after its number. -/
def numberedLine (source : List Char) (number : Nat) : String :=
  lineLabel number ++ String.ofList (lineAt source number)

/-- The lines from one number up to another, as they are shown. -/
def numberedLines (source : List Char) (first last : Nat) : List String :=
  (List.range' first (last + 1 - first)).map (numberedLine source)

/-- What an excerpt shows of the line with a number. -/
def shownOf (source : List Char) (line column around : Int) (number : Nat) : List String :=
  if line - around ≤ number ∧ number ≤ line + around then
    if number = line then [numberedLine source number, caretLine column]
    else [numberedLine source number]
  else []

variable {source : List Char} {line around number start count : Nat} {column : Int}

/-! ## The window -/

theorem zipIdx_one_eq (texts : List (List Char)) :
    texts.zipIdx 1 = (List.range' 1 texts.length).map fun number =>
      (texts.getD (number - 1) [], number) := by
  refine List.ext_getElem (by simp) fun i h h' => ?_
  rw [List.length_zipIdx] at h
  simp [List.getElem?_eq_getElem h, Nat.add_comm]

theorem excerptLines_eq (source : List Char) (line column around : Int) :
    excerptLines source line column around =
      (List.range' 1 (splitAt '\n' source).length).flatMap (shownOf source line column around) := by
  unfold excerptLines
  rw [zipIdx_one_eq, List.flatMap_map]
  rfl

theorem shownOf_line : shownOf source line column around line =
    [numberedLine source line, caretLine column] := by
  unfold shownOf
  rw [if_pos (by omega), if_pos rfl]

/-- Nothing is shown of lines outside of the window. -/
theorem flatMap_outside (outside : ∀ number ∈ List.range' start count,
      number + around < line ∨ line + around < number) :
    (List.range' start count).flatMap (shownOf source line column around) = [] := by
  refine List.flatMap_eq_nil_iff.mpr fun number mem => ?_
  have := outside number mem
  unfold shownOf
  rw [if_neg (by omega)]

/-- Of the other lines of the window each is shown once. -/
theorem flatMap_inside (inside : ∀ number ∈ List.range' start count,
      line ≤ number + around ∧ number ≤ line + around ∧ number ≠ line) :
    (List.range' start count).flatMap (shownOf source line column around) =
      (List.range' start count).map (numberedLine source) := by
  rw [List.map_eq_flatMap]
  refine List.flatMap_congr fun number mem => ?_
  have := inside number mem
  unfold shownOf
  rw [if_pos (by omega), if_neg (by omega)]

theorem range'_split {m n : Nat} (h : m ≤ n) :
    List.range' start n = List.range' start m ++ List.range' (start + m) (n - m) := by
  rw [List.range'_append_1, Nat.add_sub_cancel' h]

@[simp]
theorem numberedLines_self : numberedLines source line line = [numberedLine source line] := by
  simp [numberedLines]

theorem numberedLines_of_lt {first last : Nat} (h : last < first) :
    numberedLines source first last = [] := by
  rw [numberedLines, Nat.sub_eq_zero_of_le h, List.range'_zero, List.map_nil]

theorem numberedLines_snoc (h : start ≤ line) :
    numberedLines source start line =
      (List.range' start (line - start)).map (numberedLine source) ++
        [numberedLine source line] := by
  have size : line + 1 - start = line - start + 1 := by omega
  unfold numberedLines
  rw [size, List.range'_1_concat, List.map_append, Nat.add_sub_cancel' h]
  rfl

theorem excerptLines_window (first : 1 ≤ line) (last : line ≤ (splitAt '\n' source).length) :
    excerptLines source line column around =
      numberedLines source (max 1 (line - around)) line ++ caretLine column ::
        numberedLines source (line + 1) (min (splitAt '\n' source).length (line + around)) := by
  rw [excerptLines_eq]
  generalize (splitAt '\n' source).length = size at last ⊢
  generalize low : max 1 (line - around) = a
  generalize high : min size (line + around) = b
  -- the lines before the window and in it up to the line, and those behind the line
  have whole : List.range' 1 size =
      List.range' 1 (line - 1) ++ line :: List.range' (line + 1) (size - line) := by
    rw [range'_split (m := line - 1) (by omega), ← List.range'_succ]
    congr 2 <;> omega
  have before : List.range' 1 (line - 1) = List.range' 1 (a - 1) ++ List.range' a (line - a) := by
    rw [range'_split (m := a - 1) (by omega)]
    congr 2 <;> omega
  have behind : List.range' (line + 1) (size - line) =
      List.range' (line + 1) (b - line) ++ List.range' (b + 1) (size - b) := by
    rw [range'_split (m := b - line) (by omega)]
    congr 2 <;> omega
  have bounds {number start count : Nat} (mem : number ∈ List.range' start count) :
      start ≤ number ∧ number < start + count := List.mem_range'_1.mp mem
  rw [whole, before, behind, List.flatMap_append, List.flatMap_append, List.flatMap_cons,
    List.flatMap_append, shownOf_line, numberedLines_snoc (by omega)]
  rw [flatMap_outside fun number mem => by have := bounds mem; omega]
  rw [flatMap_inside fun number mem => by have := bounds mem; omega]
  rw [flatMap_inside fun number mem => by have := bounds mem; omega]
  rw [flatMap_outside fun number mem => by have := bounds mem; omega]
  simp [numberedLines]

theorem splitAt_replicate (mark : Char) (n : Nat) (rest : List Char) :
    splitAt mark (List.replicate n mark ++ rest) = List.replicate n [] ++ splitAt mark rest := by
  induction n with
  | zero => rfl
  | succ n ih =>
    rw [List.replicate_succ, List.cons_append, splitAt, if_pos rfl, ih]
    rfl

/-- What is shown of one line of text behind empty lines. -/
theorem excerptLines_last {text : List Char} (alone : splitAt '\n' text = [text]) (n : Nat) :
    excerptLines (List.replicate n '\n' ++ text) (n + 1 : Nat) column (0 : Nat) =
      [lineLabel (n + 1) ++ String.ofList text, caretLine column] := by
  have lines := splitAt_replicate '\n' n text
  have size : (splitAt '\n' (List.replicate n '\n' ++ text)).length = n + 1 := by
    rw [lines, alone, List.length_append, List.length_replicate, List.length_singleton]
  have shown : numberedLine (List.replicate n '\n' ++ text) (n + 1) =
      lineLabel (n + 1) ++ String.ofList text := by
    simp [numberedLine, lineAt, lines, alone]
  rw [excerptLines_window (Nat.le_add_left 1 n) (Nat.le_of_eq size.symm), size, Nat.sub_zero,
    Nat.add_zero, Nat.min_self, Nat.max_eq_right (Nat.le_add_left 1 n), numberedLines_self, shown,
    numberedLines_of_lt (Nat.lt_succ_self _)]
  rfl

/-! ## Columns -/

theorem toList_lineLabel (number : Nat) :
    (lineLabel number).toList =
      List.replicate (4 - (Nat.toDigits 10 number).length) ' ' ++
        (Nat.toDigits 10 number ++ [':', ' ']) := by
  simp [lineLabel]

theorem toList_numberedLine (source : List Char) (number : Nat) :
    (numberedLine source number).toList = (lineLabel number).toList ++ lineAt source number := by
  rw [numberedLine, String.toList_append, String.toList_ofList]

/-- The caret line is a caret behind blanks, and some words. -/
theorem toList_caretLine (i : Nat) :
    (caretLine (i + 1 : Nat)).toList =
      List.replicate (6 + i) ' ' ++ '^' :: " Error here".toList := by
  simp [caretLine]

/-- Numbers of up to four digits are padded to a width of four, and greater ones are wider. -/
theorem length_lineLabel_eq_six_iff : (lineLabel number).toList.length = 6 ↔ number < 10000 := by
  have digits : (Nat.toDigits 10 number).length ≤ 4 ↔ number < 10 ^ 4 :=
    Nat.length_toDigits_le_iff (by decide) (by decide)
  rw [toList_lineLabel, List.length_append, List.length_append, List.length_replicate]
  simp only [List.length_cons, List.length_nil]
  omega

/-- The only caret of the caret line is the one in front of its words. -/
theorem caretLine_getElem?_iff {i j : Nat} :
    (caretLine (i + 1 : Nat)).toList[j]? = some '^' ↔ j = 6 + i := by
  have words : '^' ∉ " Error here".toList := by decide
  rw [toList_caretLine]
  rcases Nat.lt_trichotomy j (6 + i) with before | rfl | behind
  · rw [List.getElem?_append_left (by simpa using before), List.getElem?_replicate, if_pos before]
    simp only [Option.some.injEq]
    exact iff_of_false (by decide) (by omega)
  · simp
  · rw [List.getElem?_append_right (by simp; omega), List.length_replicate]
    obtain ⟨k, hk⟩ : ∃ k, j - (6 + i) = k + 1 := ⟨j - (6 + i) - 1, by omega⟩
    rw [hk, List.getElem?_cons_succ]
    exact iff_of_false (fun found => words (List.mem_of_getElem? found)) (by omega)

/-! ## The excerpt as a whole -/

/-- The lines around a line are shown in order, each after its number, and one caret behind the
line itself. The caret is below the character of its column up to line 9999, and not from then
on. -/
theorem excerpt_around {i : Nat} (first : 1 ≤ line) (last : line ≤ (splitAt '\n' source).length) :
    excerpt source line (i + 1 : Nat) around = String.intercalate "\n"
        (numberedLines source (max 1 (line - around)) line ++ caretLine (i + 1 : Nat) ::
          numberedLines source (line + 1) (min (splitAt '\n' source).length (line + around))) ∧
      (∀ number, (numberedLine source number).toList =
        List.replicate (4 - (Nat.toDigits 10 number).length) ' ' ++
          (Nat.toDigits 10 number ++ [':', ' '] ++ lineAt source number)) ∧
      (∀ k, (numberedLine source line).toList[(lineLabel line).toList.length + k]? =
        (lineAt source line)[k]?) ∧
      (∃! j : Nat, (caretLine (i + 1 : Nat)).toList[j]? = some '^') ∧
      ((caretLine (i + 1 : Nat)).toList[(lineLabel line).toList.length + i]? = some '^' ↔
        line < 10000) := by
  refine ⟨?window, fun number => ?shown, fun k => ?column, ?once, ?below⟩
  case window => rw [excerpt, excerptLines_window first last]
  case shown => rw [toList_numberedLine, toList_lineLabel, List.append_assoc]
  case column =>
    rw [toList_numberedLine, List.getElem?_append_right (Nat.le_add_right _ _),
      Nat.add_sub_cancel_left]
  case once => exact ⟨6 + i, caretLine_getElem?_iff.mpr rfl, fun j => caretLine_getElem?_iff.mp⟩
  case below =>
    rw [caretLine_getElem?_iff, Nat.add_right_cancel_iff]
    exact length_lineLabel_eq_six_iff

theorem excerpt_around_second :
    1 ≤ 2 ∧ 2 ≤ (splitAt '\n' "1 +\n2 2\n".toList).length ∧
      excerpt "1 +\n2 2\n".toList (2 : Nat) (2 + 1 : Nat) (1 : Nat) =
        "   1: 1 +\n   2: 2 2\n        ^ Error here\n   3: " := by
  have last : 2 ≤ (splitAt '\n' "1 +\n2 2\n".toList).length := by decide
  exact ⟨by decide, last, (excerpt_around (by decide) last).1.trans (by decide +kernel)⟩

/-- On line 10000 the caret stands below the blank in front of the text. -/
theorem excerpt_wide_number :
    excerptLines (List.replicate 9999 '\n' ++ ['x']) 10000 1 0 =
        ["10000: x", "      ^ Error here"] ∧
      "10000: x".toList[7]? = some 'x' ∧ "      ^ Error here".toList[7]? ≠ some '^' := by
  have shown : lineLabel (9999 + 1) ++ String.ofList ['x'] = "10000: x" := by decide +kernel
  have marked : caretLine 1 = "      ^ Error here" := by decide +kernel
  refine ⟨?_, by decide, by decide⟩
  rw [← shown, ← marked]
  exact excerptLines_last rfl 9999

end Reckoner
