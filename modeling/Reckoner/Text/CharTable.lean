/-!
# Character ranges

A class of characters is given by the ranges of code points that belong to it, each with its first
and last member. Membership is a plain search.
-/

namespace Reckoner

/-- Ranges of code points, both ends included. -/
abbrev CharTable := List (Nat × Nat)

/-- A character belongs to a table when one of the ranges holds its code point. -/
def CharTable.has (table : CharTable) (c : Char) : Bool :=
  table.any fun range => range.1 ≤ c.toNat && c.toNat ≤ range.2

end Reckoner
