import TieredMemory.Decimal.Shortest

/-!
# Numbers shown as they were given

A configured number is kept together with the way it was written: a whole number is shown without a
point, every other number with one.
-/

namespace TieredMemory.Decimal

/-- A number with the way it is shown. -/
inductive Amount where
  /-- A whole number, shown without a point. -/
  | whole (n : Int)
  /-- A floating-point number, shown with a point. -/
  | real (x : Float)

/-- The number as a floating-point number. -/
def Amount.value : Amount → Float
  | whole n => Float.ofInt n
  | real x => x

/-- The text of the number. -/
def Amount.shown : Amount → String
  | whole n => toString n
  | real x => plain x

end TieredMemory.Decimal
