/-!
# Blank characters

Blank characters are the white space of every writing system, together with the separators of
information U+001C–U+001F and the line breaks that are not spaces. Trimming removes them from the
ends of a text.
-/

namespace Reckoner

/-- Blank characters. -/
def isBlank (c : Char) : Bool :=
  let n := c.toNat
  (9 ≤ n && n ≤ 13) || (0x1C ≤ n && n ≤ 0x20) || n == 0x85 || n == 0xA0 || n == 0x1680 ||
    (0x2000 ≤ n && n ≤ 0x200A) || n == 0x2028 || n == 0x2029 || n == 0x202F || n == 0x205F ||
    n == 0x3000

/-- The code points of the blank characters. -/
def blankCodes : List Nat :=
  List.range' 9 5 ++ List.range' 0x1C 5 ++ [0x85, 0xA0, 0x1680] ++ List.range' 0x2000 11 ++
    [0x2028, 0x2029, 0x202F, 0x205F, 0x3000]

theorem mem_blankCodes {c : Char} (h : isBlank c = true) : c.toNat ∈ blankCodes := by
  simp only [isBlank, Bool.or_eq_true, Bool.and_eq_true, decide_eq_true_iff, beq_iff_eq] at h
  simp only [blankCodes, List.mem_append, List.mem_range'_1, List.mem_cons, List.not_mem_nil]
  omega

/-- Removes blank characters from the start. -/
def trimLeft (text : List Char) : List Char :=
  text.dropWhile isBlank

/-- Removes blank characters from the end. -/
def trimRight (text : List Char) : List Char :=
  (text.reverse.dropWhile isBlank).reverse

/-- Removes blank characters from both ends. -/
def trim (text : List Char) : List Char :=
  trimRight (trimLeft text)

end Reckoner
