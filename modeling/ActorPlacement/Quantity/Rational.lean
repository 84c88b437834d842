import ActorPlacement.Quantity.Basic

/-!
# Quantities counted exactly
-/

namespace ActorPlacement

instance : Quantity Rat where
  ofInt n := n
  atLeast a b := decide (b ≤ a)
  exceeds a b := decide (b < a)
  isFinite _ := true

instance : WrittenQuantity Rat where
  plain x := toString x
  json x := toString x
  ofDecimal? d := some d.toRat

namespace Quantity

@[simp] theorem zero_rat : (zero : Rat) = 0 := by decide +kernel

@[simp] theorem one_rat : (one : Rat) = 1 := by decide +kernel

@[simp] theorem ofInt_rat (n : Int) : (ofInt n : Rat) = n := rfl

@[simp] theorem atLeast_rat (a b : Rat) : atLeast a b = decide (b ≤ a) := rfl

@[simp] theorem exceeds_rat (a b : Rat) : exceeds a b = decide (b < a) := rfl

/-- A quantity that is not negative is its own floor. -/
theorem floorAtZero_rat {x : Rat} (h : 0 ≤ x) : floorAtZero x = x := by
  by_cases hx : 0 < x
  · simp [floorAtZero, hx]
  · have h0 : x = 0 := Rat.le_antisymm (Rat.not_lt.1 hx) h
    simp [floorAtZero, h0]

theorem isValid_rat (x : Rat) : isValid x = true ↔ 0 ≤ x := by
  have hfinite : isFinite x = true := rfl
  simp only [isValid, hfinite, exceeds_rat, zero_rat, Bool.true_and, Bool.not_eq_true',
    decide_eq_false_iff_not]
  exact Rat.not_lt

end Quantity

end ActorPlacement
