/-!
# The exact value of a double

`Binary64.ofFloat` takes a double apart: a not-a-number, an infinity, or a sign with a
magnitude `mantissa · 2 ^ exponent`. Everything that writes a double in decimal or rounds it
to a whole number works on these parts in exact arithmetic.
-/

namespace ActorPlacement

/-- What a double stands for. -/
inductive Binary64 where
  | nan
  | infinite (negative : Bool)
  | finite (negative : Bool) (mantissa : Nat) (exponent : Int)
  deriving DecidableEq, Repr

namespace Binary64

/-- The smallest exponent of a finite double's unit in the last place. -/
def minExponent : Int := -1074

/-- The mantissa at which the doubles below lie twice as close as those above. -/
def boundary : Nat := Nat.pow 2 52

/-- Read sign, exponent field and fraction field off the bits. -/
def ofBits (bits : Nat) : Binary64 :=
  let negative : Bool := bits / Nat.pow 2 63 % 2 == 1
  let field : Nat := bits / boundary % Nat.pow 2 11
  let fraction : Nat := bits % boundary
  if field = Nat.pow 2 11 - 1 then (if fraction = 0 then infinite negative else nan)
  else if field = 0 then finite negative fraction minExponent
  else finite negative (fraction + boundary) ((field : Int) - 1 + minExponent)

/-- The parts of `x`. -/
def ofFloat (x : Float) : Binary64 := ofBits x.toBits.toNat

/-- The magnitude `mantissa · 2 ^ exponent` as a fraction of whole numbers. -/
def ratio (mantissa : Nat) (exponent : Int) : Nat × Nat :=
  if exponent < 0 then (mantissa, Nat.pow 2 exponent.natAbs) else (mantissa * Nat.pow 2 exponent.natAbs, 1)

end Binary64

end ActorPlacement
