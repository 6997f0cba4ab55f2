/-!
# Lines of a text

Two ways to cut a text into lines. `splitAt` cuts at every occurrence of one character and keeps an
empty last line. `lines` knows every line break (line feed, carriage return, both together, vertical
tab, form feed, U+001C–U+001E, U+0085, U+2028 and U+2029) and ends the last line at the end of the
text, without an empty line after a final break. `unlines` puts lines together again.
-/

namespace Reckoner

/-- Cuts a text at every `mark`. There is always at least one piece. -/
def splitAt (mark : Char) : List Char → List (List Char)
  | [] => [[]]
  | c :: rest =>
    if c = mark then [] :: splitAt mark rest
    else match splitAt mark rest with
      | [] => [[c]]
      | piece :: pieces => (c :: piece) :: pieces

/-- The part before the first `mark` and, when there is one, the part after it. -/
def cutAt (mark : Char) (text : List Char) : List Char × Option (List Char) :=
  (text.takeWhile (· ≠ mark), (text.dropWhile (· ≠ mark)).tail?)

/-- Characters that end a line. -/
def isLineBreak (c : Char) : Bool :=
  let n := c.toNat
  (10 ≤ n && n ≤ 13) || (0x1C ≤ n && n ≤ 0x1E) || n == 0x85 || n == 0x2028 || n == 0x2029

/-- The lines of a text; `current` holds the line under way, last character first. -/
def linesFrom (current : List Char) : List Char → List (List Char)
  | [] => if current.isEmpty then [] else [current.reverse]
  | '\r' :: '\n' :: rest => current.reverse :: linesFrom [] rest
  | c :: rest =>
    if isLineBreak c then current.reverse :: linesFrom [] rest else linesFrom (c :: current) rest

/-- The lines of a text, without their breaks. -/
def lines (text : List Char) : List (List Char) :=
  linesFrom [] text

/-- The lines that a reader takes from a stream in which only the line feed ends a line. What
follows the last line feed is a line of its own unless it is empty. -/
def streamLines (text : List Char) : List (List Char) :=
  let pieces := splitAt '\n' text
  if pieces.getLast? = some [] then pieces.dropLast else pieces

/-- Lines as a text in which every line ends in a line feed. -/
def unlines (lines : List String) : String :=
  String.join (lines.map (· ++ "\n"))

end Reckoner
