import ActorPlacement.Decimal.Style
import ActorPlacement.Quantity.Basic

/-!
# Quantities counted in doubles
-/

namespace ActorPlacement

instance : Quantity Float where
  ofInt n := ({ negative := decide (n < 0), digits := n.natAbs } : Decimal).toFloat
  atLeast a b := b ≤ a
  exceeds a b := b < a
  isFinite := Float.isFinite

/-- A double from the digits of a document: the digits as a double, multiplied with or divided by the
power of ten. Each of the two steps rounds. A power beyond the table of `10 ^ 308` is applied in
parts, and a number out of range is none. -/
def scaledDouble? : Nat → Float → Int → Option Float
  | 0, _, _ => some 0.0
  | fuel + 1, x, exponent =>
    if exponent.natAbs ≤ 308 then
      let power := Float.ofScientific 1 false exponent.natAbs
      let y := if exponent < 0 then x / power else x * power
      if y.isFinite then some y else none
    else if x == 0.0 then some x
    else if 0 < exponent then none
    else scaledDouble? fuel (x / 1e308) (exponent + 308)

instance : WrittenQuantity Float where
  plain := FloatStyle.plain.write
  json := FloatStyle.json.write
  ofDecimal? d :=
    (scaledDouble? 4 (Float.ofNat d.digits) d.exponent).map fun x => if d.negative then -x else x

end ActorPlacement
