import ActorPlacement.Decimal.Basic
import ActorPlacement.Decimal.Binary64

/-!
# The fewest decimal digits that read back

A double is the nearest one to a whole interval of reals. `shortest?` finds the decimal number
of fewest digits in that interval, and of those the one nearest to the double. It tries one,
two, … seventeen digits; a grid of decimal numbers has a point in the interval only if one of the
double's two neighbours on the grid lies in it, so two candidates a grid are enough.
-/

namespace ActorPlacement

/-- Which of two equally near candidates is taken. -/
inductive Tie where
  | up
  | toEven
  deriving DecidableEq, Repr

/-- The reals that round to the double `value`, each bound as a multiple of `1 / den`. -/
structure ReadBack where
  low : Nat
  value : Nat
  high : Nat
  den : Nat
  inclusive : Bool

namespace ReadBack

/-- The interval of a positive finite double. Halfway points belong to it when its mantissa is
even, as reading rounds them to even. -/
def ofParts (mantissa : Nat) (exponent : Int) : ReadBack :=
  let (num, den) := Binary64.ratio 1 (exponent - 2)
  let below := if mantissa = Binary64.boundary ∧ exponent ≠ Binary64.minExponent then 1 else 2
  { low := (4 * mantissa - below) * num
    value := 4 * mantissa * num
    high := (4 * mantissa + 2) * num
    den
    inclusive := mantissa % 2 = 0 }

/-- Whether the real `num / den` rounds to the double. -/
def admits (r : ReadBack) (num den : Nat) : Bool :=
  let n := num * r.den
  if r.inclusive then r.low * den ≤ n && n ≤ r.high * den
  else r.low * den < n && n < r.high * den

/-- The power of ten at or below the double. -/
def power (r : ReadBack) : Int :=
  if r.den ≤ r.value then (Decimal.digitCount (r.value / r.den) : Int) - 1
  else -(Decimal.digitCount ((r.den + r.value - 1) / r.value - 1) : Int)

/-- The neighbour of the double among the multiples of `10 ^ grid` that reads back, if one does;
of two the nearer. -/
def onGrid? (r : ReadBack) (tie : Tie) (grid : Int) : Option Nat :=
  let up := if grid < 0 then 1 else Nat.pow 10 grid.natAbs
  let down := if grid < 0 then Nat.pow 10 grid.natAbs else 1
  let num := r.value * down
  let den := r.den * up
  let lower := num / den
  let twice := 2 * (num % den)
  let lowerFits := 0 < lower && r.admits (lower * up) down
  let upperFits := r.admits ((lower + 1) * up) down
  let preferUpper :=
    den < twice || (twice = den && (tie == .up || lower % 2 = 1))
  if lowerFits && upperFits then some (if preferUpper then lower + 1 else lower)
  else if lowerFits then some lower
  else if upperFits then some (lower + 1)
  else none

/-- The first of the next `fuel` grids that has a point in the interval. -/
def search (r : ReadBack) (tie : Tie) : Nat → Int → Nat × Int
  | 0, grid => (r.value / r.den, grid)
  | fuel + 1, grid =>
    match r.onGrid? tie grid with
    | some digits => (digits, grid)
    | none => search r tie fuel (grid - 1)

end ReadBack

/-- Drop trailing zeros from `digits`, each of which raises the power of ten by one. -/
def dropTrailingZeros : Nat → Nat → Int → Nat × Int
  | 0, digits, exponent => (digits, exponent)
  | fuel + 1, digits, exponent =>
    if digits % 10 = 0 then dropTrailingZeros fuel (digits / 10) (exponent + 1)
    else (digits, exponent)

/-- Digits and power of ten of the shortest decimal number that reads back as the positive finite
double `mantissa · 2 ^ exponent`. Seventeen digits always suffice. -/
def shortest (tie : Tie) (mantissa : Nat) (exponent : Int) : Nat × Int :=
  let r := ReadBack.ofParts mantissa exponent
  let (digits, grid) := r.search tie 17 r.power
  dropTrailingZeros 17 digits grid

end ActorPlacement
