import ActorPlacement.Proofs.Bundle.Amounts
import ActorPlacement.Proofs.Quantity.Order
import ActorPlacement.Scoring
import Mathlib.Algebra.BigOperators.Group.Finset.Basic
import Mathlib.Algebra.Order.BigOperators.Group.Finset
import Mathlib.Algebra.Order.Field.Basic
import Mathlib.Algebra.Order.Group.MinMax

/-!
# Utilization and fullness as means

Both are means of shares over resources of which the node has any (`counted`): utilization over those that
the node names, projected fullness over those that the demand names. In exact numbers a mean is a sum divided
by the number of its terms, and one half of no terms (`meanOver`). A share is then what its name says as long
as no less is free than is asked for and no more than there is. The score adds the means up in percent
(`weightedScore_forPacking`, `weightedScore_forSpreading`).
-/

namespace ActorPlacement

section Terms

variable {Q : Type} [Quantity Q]

/-- The resources named by a bundle of which a node has any. -/
def counted (capacity b : Bundle Q) : List String :=
  b.names.filter fun name => Quantity.exceeds (Bundle.amount capacity name) Quantity.zero

/-- All terms of a list. -/
def Tally.of (terms : List Q) : Tally Q := terms.foldl Tally.add Tally.none

theorem utilization_eq (capacity free : Bundle Q) :
    utilization capacity free = (Tally.of ((counted capacity capacity).map fun name =>
      usedShare (Bundle.amount capacity name) (Bundle.amount free name))).mean := by
  rw [utilization, Bundle.entries_eq_map_names, List.foldl_map, Tally.of, List.foldl_map, counted,
    List.foldl_filter]

theorem projected_eq (capacity free demand : Bundle Q) :
    projected capacity free demand = (Tally.of ((counted capacity demand).map fun name =>
      projectedShare (Bundle.amount capacity name) (Bundle.amount free name)
        (Bundle.amount demand name))).mean := by
  rw [projected, Bundle.entries_eq_map_names demand, List.foldl_map, Tally.of, List.foldl_map, counted,
    List.foldl_filter]

end Terms

/-! ## Exact means -/

section Exact

/-- The mean of the shares of some resources, one half of none. -/
def meanOver (names : Finset String) (share : String → Rat) : Rat :=
  if names = ∅ then 1 / 2 else (∑ name ∈ names, share name) / names.card

theorem mean_of (terms : List Rat) :
    (Tally.of terms).mean = if terms = [] then 1 / 2 else terms.sum / terms.length := by
  have hfold : ∀ (terms : List Rat) (t : Tally Rat),
      terms.foldl Tally.add t = ⟨t.total + terms.sum, t.count + terms.length⟩ := by
    intro terms
    induction terms with
    | nil => intro t; simp
    | cons x rest ih =>
      intro t
      rw [List.foldl_cons, ih]
      simp only [Tally.add, List.sum_cons, List.length_cons, Tally.mk.injEq]
      constructor
      · ring
      · omega
  rw [Tally.of, hfold, Tally.mean]
  simp only [Tally.none, Quantity.zero_rat, zero_add, List.length_eq_zero_iff, Quantity.ofInt_rat,
    Int.cast_natCast]
  split
  · decide +kernel
  · rfl

theorem mean_map {names : List String} (hnodup : names.Nodup) (share : String → Rat) :
    (Tally.of (names.map share)).mean = meanOver names.toFinset share := by
  rw [mean_of, meanOver, List.sum_toFinset _ hnodup, List.toFinset_card_of_nodup hnodup]
  simp

theorem meanOver_sub (names : Finset String) (share other : String → Rat) :
    meanOver names share - meanOver names other
      = (∑ name ∈ names, (share name - other name)) / names.card := by
  by_cases hnames : names = ∅
  · simp [meanOver, hnames]
  · simp only [meanOver, hnames, if_false, Finset.sum_sub_distrib, sub_div]

/-- A mean of shares of a whole is a share of it. -/
theorem meanOver_mem_unit {names : Finset String} {share : String → Rat}
    (h : ∀ name ∈ names, 0 ≤ share name ∧ share name ≤ 1) :
    0 ≤ meanOver names share ∧ meanOver names share ≤ 1 := by
  by_cases hnames : names = ∅
  · simp only [meanOver, hnames, if_true]
    norm_num
  · have hcard : (0 : Rat) < names.card := by
      exact_mod_cast Finset.card_pos.2 (Finset.nonempty_iff_ne_empty.2 hnames)
    have hsum : ∑ name ∈ names, share name ≤ names.card := by
      simpa using Finset.sum_le_card_nsmul names share 1 fun name hname => (h name hname).2
    simp only [meanOver, hnames, if_false]
    exact ⟨div_nonneg (Finset.sum_nonneg fun name hname => (h name hname).1) hcard.le,
      (div_le_one hcard).2 hsum⟩

/-! ## Exact shares -/

theorem nodup_counted (capacity b : Bundle Rat) : (counted capacity b).Nodup := b.nodup_names.filter _

theorem mem_counted {capacity b : Bundle Rat} {name : String} :
    name ∈ (counted capacity b).toFinset
      ↔ Bundle.Names b name ∧ 0 < Bundle.amount capacity name := by
  rw [List.mem_toFinset, counted, List.mem_filter, Bundle.mem_names_iff]
  simp

/-- What a demand counts is counted on the node too. -/
theorem counted_subset (capacity demand : Bundle Rat) :
    (counted capacity demand).toFinset ⊆ (counted capacity capacity).toFinset := by
  intro name hname
  obtain ⟨-, hpos⟩ := mem_counted.1 hname
  refine mem_counted.2 ⟨?_, hpos⟩
  by_contra habsent
  rw [Bundle.amount_of_not_names habsent] at hpos
  exact lt_irrefl _ hpos

theorem utilization_rat (capacity free : Bundle Rat) :
    utilization capacity free = meanOver (counted capacity capacity).toFinset fun name =>
      usedShare (Bundle.amount capacity name) (Bundle.amount free name) := by
  rw [utilization_eq, mean_map (nodup_counted _ _)]

theorem projected_rat (capacity free demand : Bundle Rat) :
    projected capacity free demand = meanOver (counted capacity demand).toFinset fun name =>
      projectedShare (Bundle.amount capacity name) (Bundle.amount free name)
        (Bundle.amount demand name) := by
  rw [projected_eq, mean_map (nodup_counted _ _)]

theorem usedShare_mem_unit (all left : Rat) : 0 ≤ usedShare all left ∧ usedShare all left ≤ 1 := by
  rw [usedShare, Quantity.clampToUnit_eq]
  exact ⟨le_max_left _ _, max_le zero_le_one (min_le_right _ _)⟩

theorem projectedShare_mem_unit {all left asked : Rat} (hall : 0 < all) (hleft : left ≤ all)
    (hasked : 0 ≤ asked) : 0 ≤ projectedShare all left asked ∧ projectedShare all left asked ≤ 1 := by
  rw [projectedShare, Quantity.capAtOne_eq_min]
  have hused : 0 ≤ (all - left + asked) / all := div_nonneg (by linarith) hall.le
  exact ⟨le_min hused zero_le_one, min_le_right _ _⟩

/-- The clamp shows only where more is free than there is or less than nothing. -/
theorem usedShare_rat {all left : Rat} (hall : 0 < all) (hnonneg : 0 ≤ left) (hleft : left ≤ all) :
    usedShare all left = (all - left) / all := by
  have hlow : 0 ≤ (all - left) / all := div_nonneg (by linarith) hall.le
  have hhigh : (all - left) / all ≤ 1 := (div_le_one hall).2 (by linarith)
  rw [usedShare, Quantity.clampToUnit_eq, min_eq_left hhigh, max_eq_right hlow]

/-- The cap shows only where more is asked for than is free. -/
theorem projectedShare_rat {all left asked : Rat} (hall : 0 < all) (hasked : asked ≤ left) :
    projectedShare all left asked = (all - left + asked) / all := by
  have hhigh : (all - left + asked) / all ≤ 1 := (div_le_one hall).2 (by linarith)
  rw [projectedShare, Quantity.capAtOne_eq_min, min_eq_left hhigh]

/-! ## Exact scores -/

/-- How near a utilization is to the average, as a part of one. -/
def nearness (nodeUtilization average : Rat) : Rat := max (1 - |nodeUtilization - average|) 0

/-- Nearness to the average changes by no more than the utilization does. -/
theorem abs_nearness_sub_le (u v average : Rat) :
    |nearness u average - nearness v average| ≤ |u - v| := by
  refine (abs_max_sub_max_le_abs _ _ _).trans ?_
  rw [abs_sub_comm u v]
  simpa using abs_abs_sub_abs_le (v - average) (u - average)

theorem hundred_rat : (100.0 : Rat) = 100 := by norm_num

theorem balanceScore_rat (nodeUtilization average : Rat) :
    balanceScore nodeUtilization average = 100 * nearness nodeUtilization average := by
  rw [balanceScore, Quantity.floorAtZero_eq_max, Quantity.magnitude_eq_abs, Quantity.one_rat, nearness,
    mul_comm]
  exact congrArg (· * _) hundred_rat

theorem forPacking_rat : (Weights.forPacking : Weights Rat) = ⟨4 / 5, 0, 1 / 5⟩ := by
  rw [Weights.forPacking, Weights.mk.injEq]
  decide +kernel

theorem forSpreading_rat : (Weights.forSpreading : Weights Rat) = ⟨0, 4 / 5, 1 / 5⟩ := by
  rw [Weights.forSpreading, Weights.mk.injEq]
  decide +kernel

theorem weightedScore_rat (capacity free demand : Bundle Rat) (weights : Weights Rat) (average : Rat) :
    weightedScore capacity free demand weights average
      = 100 * (weights.packing * projected capacity free demand
        + weights.headroom * (1 - projected capacity free demand)
        + weights.balance * nearness (utilization capacity free) average) := by
  rw [weightedScore, balanceScore_rat, Quantity.one_rat]
  show _ * (_ * (100.0 : Rat)) + _ * (_ * (100.0 : Rat)) + _ = _
  rw [hundred_rat]
  ring

theorem weightedScore_forPacking (capacity free demand : Bundle Rat) (average : Rat) :
    weightedScore capacity free demand Weights.forPacking average
      = 80 * projected capacity free demand + 20 * nearness (utilization capacity free) average := by
  rw [weightedScore_rat, forPacking_rat]
  ring

theorem weightedScore_forSpreading (capacity free demand : Bundle Rat) (average : Rat) :
    weightedScore capacity free demand Weights.forSpreading average
      = 80 * (1 - projected capacity free demand)
        + 20 * nearness (utilization capacity free) average := by
  rw [weightedScore_rat, forSpreading_rat]
  ring

end Exact

end ActorPlacement
