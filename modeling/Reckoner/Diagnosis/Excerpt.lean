import Reckoner.Text.Lines

/-!
# Excerpts of a text

An excerpt shows the lines around a place, each after its number, and a caret below the place. Line
numbers are padded to four digits, and the caret line is indented by the width of a padded number.
-/

namespace Reckoner

/-- A line number, padded to four digits. -/
def lineLabel (number : Nat) : String :=
  let digits := Nat.toDigits 10 number
  String.ofList (List.replicate (4 - digits.length) ' ' ++ digits) ++ ": "

/-- The line that marks a column of the line above it. -/
def caretLine (column : Int) : String :=
  String.ofList (List.replicate (6 + (column - 1).toNat) ' ') ++ "^ Error here"

/-- The lines shown for a place, with up to `around` lines before and after it. -/
def excerptLines (source : List Char) (line column around : Int) : List String :=
  ((splitAt '\n' source).zipIdx 1).flatMap fun (text, number) =>
    if line - around ≤ number ∧ number ≤ line + around then
      let shown := lineLabel number ++ String.ofList text
      if number = line then [shown, caretLine column] else [shown]
    else []

/-- The lines around a place of a text. -/
def excerpt (source : List Char) (line column around : Int) : String :=
  String.intercalate "\n" (excerptLines source line column around)

end Reckoner
