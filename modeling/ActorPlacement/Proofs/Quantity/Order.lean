import ActorPlacement.Quantity.Double
import ActorPlacement.Quantity.Rational
import Mathlib.Algebra.Order.Ring.Rat
import Mathlib.Data.Nat.Cast.Order.Ring
import Mathlib.Data.Prod.Lex
import Mathlib.Order.Compare

/-!
# The order of quantities

Quantities that are numbers are ordered: any two compare, and one exceeds the other just if the other is not
at least as much. Exact quantities are all numbers. Doubles are numbers unless they are what is called not a
number (`isNumber_double`), which compares with nothing. Of the others each has a position on a line
(`position?`), and two compare as their positions do.
-/

namespace ActorPlacement

/-- The quantity compares with itself, as numbers do. -/
def Quantity.IsNumber {Q : Type} [Quantity Q] (x : Q) : Prop := Quantity.atLeast x x = true

/-- Quantities of which those that are numbers are linearly ordered. -/
class OrderedQuantity (Q : Type) [Quantity Q] : Prop where
  total : ∀ {x y : Q}, Quantity.IsNumber x → Quantity.IsNumber y →
    Quantity.atLeast x y = true ∨ Quantity.atLeast y x = true
  trans : ∀ {x y z : Q}, Quantity.atLeast x y = true → Quantity.atLeast y z = true →
    Quantity.atLeast x z = true
  exceeds_iff : ∀ {x y : Q}, Quantity.IsNumber x → Quantity.IsNumber y →
    (Quantity.exceeds x y = true ↔ ¬Quantity.atLeast y x = true)

instance : OrderedQuantity Rat where
  total {x y} _ _ := by simpa using le_total y x
  trans hxy hyz := by
    simp only [Quantity.atLeast_rat, decide_eq_true_eq] at *
    exact hyz.trans hxy
  exceeds_iff _ _ := by simp

namespace Quantity

/-! ## Exact floors, caps and magnitudes -/

theorem floorAtZero_eq_max (x : Rat) : floorAtZero x = max x 0 := by
  simp only [floorAtZero, exceeds_rat, zero_rat, decide_eq_true_eq]
  split
  · exact (max_eq_left (le_of_lt ‹_›)).symm
  · exact (max_eq_right (not_lt.1 ‹_›)).symm

/-- To take `x` and then `y` is to take both at once. -/
theorem floorAtZero_sub_sub (held x : Rat) {y : Rat} (hy : 0 ≤ y) :
    floorAtZero (floorAtZero (held - x) - y) = floorAtZero (held - (x + y)) := by
  simp only [floorAtZero_eq_max]
  rcases le_total held x with h | h
  · -- nothing is left to take `y` from
    have htogether : held ≤ x + y := h.trans (le_add_of_nonneg_right hy)
    rw [max_eq_right (sub_nonpos.2 h), zero_sub, max_eq_right (neg_nonpos.2 hy),
      max_eq_right (sub_nonpos.2 htogether)]
  · rw [max_eq_left (sub_nonneg.2 h), sub_sub]

theorem capAtOne_eq_min (x : Rat) : capAtOne x = min x 1 := by
  simp only [capAtOne, exceeds_rat, one_rat, decide_eq_true_eq]
  split
  · exact (min_eq_left (le_of_lt ‹_›)).symm
  · exact (min_eq_right (not_lt.1 ‹_›)).symm

theorem clampToUnit_eq (x : Rat) : clampToUnit x = max 0 (min x 1) := by
  simp only [clampToUnit, exceeds_rat, zero_rat, one_rat, decide_eq_true_eq]
  split
  · exact (max_eq_left ((min_le_left x 1).trans (le_of_lt ‹_›))).symm
  · rename_i hx
    split
    · rw [min_eq_right (le_of_lt ‹_›), max_eq_right zero_le_one]
    · rw [min_eq_left (not_lt.1 ‹_›), max_eq_right (not_lt.1 hx)]

theorem magnitude_eq_abs (x : Rat) : magnitude x = |x| := by
  simp only [magnitude, exceeds_rat, zero_rat, decide_eq_true_eq]
  split
  · rw [abs_of_neg ‹_›, zero_sub]
  · exact (abs_of_nonneg (not_lt.1 ‹_›)).symm

/-! ## Doubles -/

open Float.Model

/-- Where an unpacked double lies: on which side of zero and whether it is infinite, then its exponent, then
its mantissa, the last two turned around below zero. -/
def position? : UnpackedFloat → Option (Int ×ₗ Int ×ₗ Int)
  | .notANumber => none
  | .infinity .negative => some (toLex (-2, toLex (0, 0)))
  | .finite .negative mantissa exponent _ => some (toLex (-1, toLex (-exponent, -(mantissa : Int))))
  | .zero _ => some (toLex (0, toLex (0, 0)))
  | .finite .positive mantissa exponent _ => some (toLex (1, toLex (exponent, (mantissa : Int))))
  | .infinity .positive => some (toLex (2, toLex (0, 0)))

theorem compare_natCast (m m' : Nat) : compare (m : Int) (m' : Int) = compare m m' := by
  rw [← cmp_eq_compare, ← cmp_eq_compare]
  exact (Nat.strictMono_cast (α := Int)).cmp_map_eq m m'

theorem compare_neg (e e' : Int) : compare (-e) (-e') = (compare e e').swap := by
  rw [← cmp_eq_compare, ← cmp_eq_compare, cmp_swap]
  exact StrictAnti.cmp_map_eq (fun _ _ h => Int.neg_lt_neg h) e e'

theorem compare_position (side side' e e' m m' : Int) :
    compare (toLex (side, toLex (e, m))) (toLex (side', toLex (e', m')))
      = (compare side side').then ((compare e e').then (compare m m')) := rfl

/-- Unpacked doubles compare as their positions do. -/
theorem compare_eq_positions (u v : UnpackedFloat) :
    u.compare v = (position? u).bind fun a => (position? v).map fun b => compare a b := by
  -- sides decide, except between two finite doubles that are on one side
  rcases u with (_ | _) | _ | _ | ⟨_ | _, m, e, _⟩ <;>
    rcases v with (_ | _) | _ | _ | ⟨_ | _, m', e', _⟩ <;> try rfl
  · show some ((compare e e').then (compare m m')).swap
      = some (compare (toLex (-1, toLex (-e, -(m : Int)))) (toLex (-1, toLex (-e', -(m' : Int)))))
    rw [compare_position, compare_neg e e', compare_neg m m', compare_natCast, Ordering.swap_then]
    rfl
  · show some ((compare e e').then (compare m m'))
      = some (compare (toLex (1, toLex (e, (m : Int)))) (toLex (1, toLex (e', (m' : Int)))))
    rw [compare_position, compare_natCast]
    rfl

theorem double_le_iff {x y : Float} :
    x ≤ y ↔ ∃ a b, position? x.toModel.unpack = some a ∧ position? y.toModel.unpack = some b ∧ a ≤ b := by
  have hunpacked : x ≤ y ↔ (x.toModel.unpack.compare y.toModel.unpack).any Ordering.isLE = true :=
    decide_eq_true_iff
  rw [hunpacked, compare_eq_positions]
  cases position? x.toModel.unpack with
  | none => simp
  | some a => cases position? y.toModel.unpack <;> simp [← Ordering.ne_gt_iff_isLE, compare_le_iff_le]

theorem double_lt_iff {x y : Float} :
    x < y ↔ ∃ a b, position? x.toModel.unpack = some a ∧ position? y.toModel.unpack = some b ∧ a < b := by
  have hunpacked : x < y ↔ (x.toModel.unpack.compare y.toModel.unpack == some .lt) = true :=
    decide_eq_true_iff
  rw [hunpacked, compare_eq_positions]
  cases position? x.toModel.unpack with
  | none => simp
  | some a => cases position? y.toModel.unpack <;> simp [compare_lt_iff_lt]

theorem isNumber_iff_position {x : Float} :
    IsNumber x ↔ ∃ a, position? x.toModel.unpack = some a := by
  have hself : IsNumber x ↔ x ≤ x := decide_eq_true_iff
  rw [hself, double_le_iff]
  exact ⟨fun ⟨a, _, ha, _⟩ => ⟨a, ha⟩, fun ⟨a, ha⟩ => ⟨a, a, ha, ha, le_rfl⟩⟩

/-- The doubles that are numbers are those that are not what is called not a number. -/
theorem isNumber_double {x : Float} : IsNumber x ↔ x.isNaN = false := by
  rw [isNumber_iff_position]
  show _ ↔ x.toModel.unpack.isNaN = false
  cases x.toModel.unpack with
  | notANumber =>
    refine iff_of_false ?_ Bool.noConfusion
    rintro ⟨a, ha⟩
    cases ha
  | zero => exact iff_of_true ⟨_, rfl⟩ rfl
  | infinity sign | finite sign =>
    cases sign <;> exact iff_of_true ⟨_, rfl⟩ rfl

theorem isNumber_of_isFinite {x : Float} (h : x.isFinite = true) : IsNumber x := by
  have hfinite : x.toModel.unpack.isFinite = true := h
  rw [isNumber_double]
  show x.toModel.unpack.isNaN = false
  cases hx : x.toModel.unpack with
  | notANumber =>
    rw [hx] at hfinite
    cases hfinite
  | infinity | zero | finite => rfl

instance : OrderedQuantity Float where
  total {x y} hx hy := by
    obtain ⟨a, ha⟩ := isNumber_iff_position.1 hx
    obtain ⟨b, hb⟩ := isNumber_iff_position.1 hy
    rcases le_total b a with h | h
    · exact .inl (decide_eq_true (double_le_iff.2 ⟨b, a, hb, ha, h⟩))
    · exact .inr (decide_eq_true (double_le_iff.2 ⟨a, b, ha, hb, h⟩))
  trans {x y z} hxy hyz := by
    obtain ⟨b, a, hb, ha, hba⟩ := double_le_iff.1 (of_decide_eq_true hxy)
    obtain ⟨c, b', hc, hb', hcb⟩ := double_le_iff.1 (of_decide_eq_true hyz)
    obtain rfl := Option.some.inj (hb.symm.trans hb')
    exact decide_eq_true (double_le_iff.2 ⟨c, a, hc, ha, hcb.trans hba⟩)
  exceeds_iff {x y} hx hy := by
    obtain ⟨a, ha⟩ := isNumber_iff_position.1 hx
    obtain ⟨b, hb⟩ := isNumber_iff_position.1 hy
    have hexceeds : exceeds x y = true ↔ y < x := decide_eq_true_iff
    have hatLeast : atLeast y x = true ↔ x ≤ y := decide_eq_true_iff
    rw [hexceeds, hatLeast, double_lt_iff, double_le_iff]
    simp [ha, hb]

end Quantity

end ActorPlacement
