import Reckoner.Text.Blank

/-!
# Alphabets

Which characters are letters and which are numerals is settled by a character database, and every
version of it knows more of them. What is read here depends on the database that is at hand, and
needs few facts about it: among the ASCII characters only `A`–`Z` and `a`–`z` are letters, and no
blank is one.
-/

namespace Reckoner

/-- The letters and the numerals of a character database. -/
class Alphabet where
  /-- Letters of every alphabet. -/
  isLetter : Char → Bool
  /-- Decimal digits, other digits and numeric characters of every writing system. -/
  isNumeral : Char → Bool
  isLetter_of_ascii : ∀ {c : Char}, c.toNat < 128 → isLetter c = c.isAlpha
  isLetter_of_isBlank : ∀ {c : Char}, isBlank c = true → isLetter c = false

export Alphabet (isLetter isNumeral)

/-- Letters and numerals of every writing system. -/
def isAlphanumeric [Alphabet] (c : Char) : Bool :=
  isLetter c || isNumeral c

end Reckoner
