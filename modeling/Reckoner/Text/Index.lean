/-!
# Characters by index

Indices are integers. An index below zero counts from the end of the text, so `-1` is the last
character; an index at or past the end finds nothing.
-/

namespace Reckoner

/-- The character at an index. -/
def charAt? (text : List Char) (index : Int) : Option Char :=
  if 0 ≤ index then text[index.toNat]?
  else if 0 ≤ index + text.length then text[(index + text.length).toNat]?
  else none

/-- An index of a cut, brought into the text: one below zero counts from the end, and one outside
the text moves to the nearer end. -/
def cutPoint (text : List Char) (index : Int) : Nat :=
  let fromStart := if 0 ≤ index then index else index + text.length
  min fromStart.toNat text.length

/-- The characters from one index up to another. -/
def between (text : List Char) (first last : Int) : List Char :=
  (text.drop (cutPoint text first)).take (cutPoint text last - cutPoint text first)

/-- The text has `pattern` at the index. Past the end there is nothing, not even an empty piece. -/
def hasAt (text pattern : List Char) (index : Int) : Bool :=
  index ≤ text.length && pattern.isPrefixOf (text.drop (cutPoint text index))

/-- An index that counts from the start is looked up as it is. -/
@[simp]
theorem charAt?_natCast (text : List Char) (index : Nat) :
    charAt? text (index : Int) = text[index]? := by
  simp [charAt?]

end Reckoner
