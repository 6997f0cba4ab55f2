import Reckoner.Value.Datum

/-!
# Parsers in words

Parsers without parts can be described by what they read.
-/

namespace Reckoner

/-- A parser without parts. -/
inductive Leaf where
  | codePoint (n : Int)
  | literal (pattern : String)
  | pure (value : Datum)
  | fail (error : Datum)

namespace Leaf

/-- The parser. -/
def parser {κ : Type} [Placed κ] : Leaf → Parser (List Char) κ Datum Datum
  | codePoint n =>
    (((TextParser.codePoint n).map fun c => Datum.scalar (.int c.toNat)).mapError .error).withPlace
  | literal pattern =>
    (((TextParser.literal pattern).map fun s => Datum.scalar (.text s)).mapError .error).withPlace
  | pure v => .pure v
  | fail e => .fail e

/-- The parser in words. -/
def describe : Leaf → Except Fault String
  | codePoint n =>
    if !TextParser.fitsWord n then .error .codePointTooLarge
    else if n < 0 ∨ 0x110000 ≤ n then .error .notCharacter
    else .ok s!"char({quotedCodePoint n.toNat})"
  | literal pattern => .ok s!"string({quoted pattern})"
  | pure v => .ok s!"pure({v.literal})"
  | fail e => .ok s!"fail({e.literal})"

end Leaf

end Reckoner
