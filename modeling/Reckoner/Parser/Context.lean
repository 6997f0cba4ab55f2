import Reckoner.Parser.Basic
import Reckoner.Text.Position

/-!
# Contexts of a run

Texts are read in a `Position`, streams in a count of the elements read. A `Spot` is a context of
either kind, or none at all. `withPlace` lets a parser of texts run in any context that may hold a
position.
-/

namespace Reckoner

/-- The context of a run of any kind. -/
inductive Spot where
  | absent
  | place (position : Position)
  | count (read : Int)
deriving DecidableEq, Repr

instance : Inhabited Spot := ⟨.absent⟩

/-- The context in words. -/
def Spot.describe : Spot → String
  | .absent => "None"
  | .place p => p.describe
  | .count n => toString n

/-- Contexts that may hold a position. -/
class Placed (κ : Type) where
  /-- The context at a position. -/
  ofPosition : Position → κ
  /-- The position, if there is one. -/
  position? : κ → Option Position
  /-- A context at a position holds that position. -/
  position?_ofPosition : ∀ p, position? (ofPosition p) = some p := by intros; rfl

attribute [simp] Placed.position?_ofPosition

instance : Placed Position where
  ofPosition := id
  position? := some

instance : Placed Spot where
  ofPosition := .place
  position?
    | .place p => some p
    | _ => none

/-- The starting context of every parser of texts. -/
def textStart {κ : Type} [Placed κ] : Unit → Except Fault κ :=
  fun _ => .ok (Placed.ofPosition .start)

namespace Parser

variable {ι κ ε α : Type}

/-- Runs a parser of texts at the position that the context holds. -/
def withPlace [Placed κ] (p : Parser ι Position ε α) : Parser ι κ ε α where
  start? := p.start?.map fun offer _ => (offer ()).map Placed.ofPosition
  parse := fun n s k =>
    match Placed.position? k with
    | none => .halted (.fault .noPosition)
    | some place =>
      match p.parse n s place with
      | .success v s' place' => .success v s' (Placed.ofPosition place')
      | .failure e s' place' => .failure e s' (Placed.ofPosition place')
      | .halted h => .halted h

end Parser

end Reckoner
