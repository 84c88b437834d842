import ActorPlacement.Proofs.Bundle.Amounts
import ActorPlacement.Proofs.Quantity.Order
import ActorPlacement.Proofs.Results
import ActorPlacement.Spec

/-!
# Specs that cover others

A spec covers itself (`PlacementSpec.covers_refl`): all that its bundles name is valid, and a valid quantity
is at least itself. Doubles keep that law as exact numbers do, since only what is not a number compares with
nothing.
-/

namespace ActorPlacement

/-- Quantities of which a valid one is at least itself. -/
class ReflexiveQuantity (Q : Type) [Quantity Q] : Prop where
  atLeast_self : ∀ {x : Q}, Quantity.isValid x = true → Quantity.atLeast x x = true

instance : ReflexiveQuantity Rat where
  atLeast_self _ := by simp

instance : ReflexiveQuantity Float where
  atLeast_self h := Quantity.isNumber_of_isFinite (Bool.and_eq_true_iff.1 h).1

variable {Q : Type} [Quantity Q] [ReflexiveQuantity Q]

namespace Bundle

/-- A bundle without fault covers itself. -/
theorem covers_refl {b : Bundle Q} (h : fault? b = none) : covers b b = true := by
  rw [covers, List.all_eq_true]
  intro e he
  have hfind : b.find? e.1 = some e.2 := (NameMap.find?_eq_some_iff b e.1 e.2).2 he
  rw [amount_of_find? hfind]
  exact ReflexiveQuantity.atLeast_self (isValid_of_find? h hfind)

end Bundle

namespace PlacementSpec

omit [ReflexiveQuantity Q] in
/-- No bundle of a spec has a fault. -/
theorem fault?_eq_none (spec : PlacementSpec Q) {b : Bundle Q} (hb : b ∈ spec.bundles) :
    Bundle.fault? b = none :=
  (findSome?_zipIdx_eq_none_iff (P := fun b => Bundle.fault? b = none) fun _ _ =>
    Option.map_eq_none_iff).1 spec.faultless b hb

/-- Every spec covers itself. -/
theorem covers_refl (spec : PlacementSpec Q) : spec.covers spec = true := by
  have hpairs : ∀ p ∈ spec.bundles.zip spec.bundles, Bundle.covers p.1 p.2 = true := by
    intro p hp
    rw [List.zip_eq_zipWith, List.zipWith_self, List.mem_map] at hp
    obtain ⟨b, hb, rfl⟩ := hp
    exact Bundle.covers_refl (spec.fault?_eq_none hb)
  simp only [covers, beq_self_eq_true, Nat.le_refl, decide_true, Bool.true_and]
  exact List.all_eq_true.2 hpairs

end PlacementSpec

end ActorPlacement
