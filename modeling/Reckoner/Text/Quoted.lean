import Reckoner.Text.Printable

/-!
# Quoted text

A text is quoted with single quotes, or with double quotes when it has a single quote and no double
one. The backslash, the quote in use, line feed, carriage return and tab are escaped by a backslash;
other characters that are not printable are written by their code point in lower-case hexadecimal,
and so are the code points that are no characters.
-/

namespace Reckoner

/-- A number in lower-case hexadecimal, padded with zeros to `width` digits. -/
def hexDigits (width n : Nat) : List Char :=
  let digits := Nat.toDigits 16 n
  List.replicate (width - digits.length) '0' ++ digits

/-- A code point by its number. -/
def codePointEscape (n : Nat) : List Char :=
  if n < 0x100 then '\\' :: 'x' :: hexDigits 2 n
  else if n < 0x10000 then '\\' :: 'u' :: hexDigits 4 n
  else '\\' :: 'U' :: hexDigits 8 n

/-- How one character is written between quotes `mark`. -/
def quotedChar (mark c : Char) : List Char :=
  if c = mark || c = '\\' then ['\\', c]
  else if c = '\n' then ['\\', 'n']
  else if c = '\r' then ['\\', 'r']
  else if c = '\t' then ['\\', 't']
  else if isPrintable c then [c]
  else codePointEscape c.toNat

/-- The quote that a text is written with. -/
def quoteMark (text : List Char) : Char :=
  if text.contains '\'' && !text.contains '"' then '"' else '\''

/-- A text between quotes. -/
def quoted (text : String) : String :=
  let mark := quoteMark text.toList
  String.ofList (mark :: text.toList.flatMap (quotedChar mark) ++ [mark])

/-- A code point between quotes. -/
def quotedCodePoint (n : Nat) : String :=
  if n.isValidChar then quoted (String.singleton (Char.ofNat n))
  else String.ofList ('\'' :: codePointEscape n ++ ['\''])

end Reckoner
