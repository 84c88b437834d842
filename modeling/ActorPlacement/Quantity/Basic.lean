import ActorPlacement.Decimal.Basic

/-!
# Quantities

Bundles, scores and plans are computed over any type of quantities. A running cluster counts in
doubles; a theorem may count in exact rationals. The operations below are the only ones used, and
each is applied in a fixed order, since doubles round at every step.

Comparison is by `atLeast` and `exceeds`, which are both false when a double is not a number. So
the floors and caps are stated by which comparison must succeed, and that decides what happens to
such a value.
-/

namespace ActorPlacement

/-- Numbers that resources are counted in. -/
class Quantity (Q : Type) extends Add Q, Sub Q, Mul Q, Div Q, OfScientific Q, BEq Q where
  /-- The nearest quantity to a whole number. -/
  ofInt : Int → Q
  /-- `atLeast a b`: `a` is `b` or more. -/
  atLeast : Q → Q → Bool
  /-- `exceeds a b`: `a` is more than `b`. -/
  exceeds : Q → Q → Bool
  /-- Neither infinite nor undefined. -/
  isFinite : Q → Bool

/-- Quantities that documents and messages write and read. -/
class WrittenQuantity (Q : Type) extends Quantity Q where
  /-- As messages write it. -/
  plain : Q → String
  /-- As JSON writes it. -/
  json : Q → String
  /-- The quantity that a decimal number writes, unless it is out of range. -/
  ofDecimal? : Decimal → Option Q

namespace Quantity

variable {Q : Type} [Quantity Q]

/-- No quantity. -/
def zero : Q := 0.0

/-- One unit. -/
def one : Q := 1.0

/-- The quantity if it is positive, else zero. -/
def floorAtZero (x : Q) : Q := if exceeds x zero then x else zero

/-- The quantity if it is below one, else one. -/
def capAtOne (x : Q) : Q := if exceeds one x then x else one

/-- The nearest value between zero and one; what compares with neither stays as it is. -/
def clampToUnit (x : Q) : Q :=
  if exceeds zero x then zero else if exceeds x one then one else x

/-- The magnitude. -/
def magnitude (x : Q) : Q := if exceeds zero x then zero - x else x

/-- Whether the quantity is one a resource may have: finite and not negative. -/
def isValid (x : Q) : Bool := isFinite x && !exceeds zero x

end Quantity

end ActorPlacement
