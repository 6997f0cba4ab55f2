/-!
# Positions in a text

A `Position` is a place in a text: an index that counts characters from 0, a row and a column that
count from 1. A `Shift` says how far a piece of text moves a position. A shift that contains a line
break restarts the column, so the column is the length of the text after the last break, plus one.

Positions and shifts may also be given by a caller, so their numbers are integers.
-/

namespace Reckoner

/-- A place in a text. -/
structure Position where
  /-- Characters before this place. -/
  index : Int
  /-- One more than the line breaks before this place. -/
  row : Int
  /-- One more than the characters since the last line break. -/
  column : Int
deriving DecidableEq, Repr

/-- How far a position moves. -/
structure Shift where
  /-- Characters passed over. -/
  index : Int := 0
  /-- Line breaks passed over. -/
  row : Int := 0
  /-- Characters after the last line break passed over. -/
  column : Int := 0
deriving DecidableEq, Repr

namespace Position

/-- The first place of every text. -/
def start : Position := ⟨0, 1, 1⟩

instance : Inhabited Position := ⟨start⟩

/-- The place reached by a shift. A shift over at least one line break counts its columns from the
start of the new line. -/
def advance (p : Position) (d : Shift) : Position :=
  ⟨p.index + d.index, p.row + d.row,
    if 0 < d.row then 1 + d.column else p.column + d.column⟩

/-- The place in words. -/
def describe (p : Position) : String :=
  s!"line {p.row}, column {p.column}"

end Position

/-- The characters after the last line break. -/
def lastLine (text : List Char) : List Char :=
  (text.reverse.takeWhile (· ≠ '\n')).reverse

/-- The shift over a piece of text. -/
def Shift.over (text : List Char) : Shift :=
  ⟨text.length, text.count '\n', (lastLine text).length⟩

/-- The place at the end of a piece of text that starts at `p`. -/
def Position.after (p : Position) (text : List Char) : Position :=
  p.advance (.over text)

/-- The place `index` characters into `text`. -/
def Position.ofIndex (text : List Char) (index : Nat) : Position :=
  start.after (text.take index)

end Reckoner
