import ActorPlacement.Proofs.Scoring.Means

/-!
# What a strategy prefers

Packing prefers the fuller of two nodes of one capacity and spreading the emptier one, whatever the average
utilization is (`preference_kept`). Fullness is a mean over the resources that the demand names and utilization
one over all that the node has, and only the former tell the two nodes apart. So the nodes differ in
utilization by no more than in fullness (`IsFuller.utilization_sub_le`), which counts four times as much.
-/

namespace ActorPlacement

/-- Of two free bundles on one capacity the first leaves no more of anything, and less only of what a demand
names. The demand fits even there. -/
structure IsFuller (capacity fuller emptier demand : Bundle Rat) : Prop where
  nonneg : ∀ name, 0 ≤ Bundle.amount fuller name
  le : ∀ name, Bundle.amount fuller name ≤ Bundle.amount emptier name
  le_capacity : ∀ name, Bundle.amount emptier name ≤ Bundle.amount capacity name
  same : ∀ name, ¬Bundle.Names demand name → Bundle.amount fuller name = Bundle.amount emptier name
  covers : Bundle.covers fuller demand = true

namespace IsFuller

variable {capacity fuller emptier demand : Bundle Rat}

theorem covers_emptier (h : IsFuller capacity fuller emptier demand) :
    Bundle.covers emptier demand = true :=
  Bundle.covers_iff.2 fun name hname => (Bundle.covers_iff.1 h.covers name hname).trans (h.le name)

/-- The share of a resource that the fuller node has in use and the emptier one has not. -/
def gap (capacity fuller emptier : Bundle Rat) (name : String) : Rat :=
  (Bundle.amount emptier name - Bundle.amount fuller name) / Bundle.amount capacity name

theorem gap_nonneg (h : IsFuller capacity fuller emptier demand) (name : String) :
    0 ≤ gap capacity fuller emptier name := by
  have hle := h.le name
  have hcapacity := h.le_capacity name
  have hnonneg := h.nonneg name
  exact div_nonneg (by linarith) (by linarith)

theorem projected_sub (h : IsFuller capacity fuller emptier demand) :
    projected capacity fuller demand - projected capacity emptier demand
      = (∑ name ∈ (counted capacity demand).toFinset, gap capacity fuller emptier name)
        / (counted capacity demand).toFinset.card := by
  rw [projected_rat, projected_rat, meanOver_sub]
  refine congrArg (· / _) (Finset.sum_congr rfl fun name hname => ?_)
  obtain ⟨hnamed, hpos⟩ := mem_counted.1 hname
  rw [projectedShare_rat hpos (Bundle.covers_iff.1 h.covers name hnamed),
    projectedShare_rat hpos (Bundle.covers_iff.1 h.covers_emptier name hnamed), gap, ← sub_div]
  ring

theorem utilization_sub (h : IsFuller capacity fuller emptier demand) :
    utilization capacity fuller - utilization capacity emptier
      = (∑ name ∈ (counted capacity capacity).toFinset, gap capacity fuller emptier name)
        / (counted capacity capacity).toFinset.card := by
  rw [utilization_rat, utilization_rat, meanOver_sub]
  refine congrArg (· / _) (Finset.sum_congr rfl fun name hname => ?_)
  obtain ⟨-, hpos⟩ := mem_counted.1 hname
  have hnonneg := h.nonneg name
  have hle := h.le name
  rw [usedShare_rat hpos hnonneg (hle.trans (h.le_capacity name)),
    usedShare_rat hpos (hnonneg.trans hle) (h.le_capacity name), gap, ← sub_div]
  ring

/-- Resources that the demand does not name make no difference. -/
theorem sum_gap (h : IsFuller capacity fuller emptier demand) :
    ∑ name ∈ (counted capacity demand).toFinset, gap capacity fuller emptier name
      = ∑ name ∈ (counted capacity capacity).toFinset, gap capacity fuller emptier name := by
  refine Finset.sum_subset (counted_subset capacity demand) fun name hname hnot => ?_
  obtain ⟨-, hpos⟩ := mem_counted.1 hname
  have hunnamed : ¬Bundle.Names demand name := fun hnamed =>
    hnot (mem_counted.2 ⟨hnamed, hpos⟩)
  rw [gap, h.same name hunnamed, sub_self, zero_div]

theorem utilization_le (h : IsFuller capacity fuller emptier demand) :
    utilization capacity emptier ≤ utilization capacity fuller := by
  rw [← sub_nonneg, h.utilization_sub]
  exact div_nonneg (Finset.sum_nonneg fun name _ => h.gap_nonneg name) (Nat.cast_nonneg _)

/-- The mean over fewer resources differs by more. -/
theorem utilization_sub_le (h : IsFuller capacity fuller emptier demand) :
    utilization capacity fuller - utilization capacity emptier
      ≤ projected capacity fuller demand - projected capacity emptier demand := by
  rw [h.projected_sub, h.utilization_sub, ← h.sum_gap]
  rcases (counted capacity demand).toFinset.eq_empty_or_nonempty with hnone | hsome
  · simp [hnone]
  · have hcard : (0 : Rat) < (counted capacity demand).toFinset.card := by
      exact_mod_cast Finset.card_pos.2 hsome
    have hfewer : ((counted capacity demand).toFinset.card : Rat)
        ≤ (counted capacity capacity).toFinset.card := by
      exact_mod_cast Finset.card_le_card (counted_subset capacity demand)
    exact div_le_div_of_nonneg_left (Finset.sum_nonneg fun name _ => h.gap_nonneg name) hcard hfewer

/-- Nodes that differ at all differ in fullness. -/
theorem projected_lt (h : IsFuller capacity fuller emptier demand) {name : String}
    (hdiffer : Bundle.amount fuller name ≠ Bundle.amount emptier name) :
    projected capacity emptier demand < projected capacity fuller demand := by
  have hlt : Bundle.amount fuller name < Bundle.amount emptier name := lt_of_le_of_ne (h.le name) hdiffer
  have hpos : 0 < Bundle.amount capacity name :=
    ((h.nonneg name).trans_lt hlt).trans_le (h.le_capacity name)
  have hnamed : Bundle.Names demand name := by
    by_contra hunnamed
    exact hdiffer (h.same name hunnamed)
  have hmem : name ∈ (counted capacity demand).toFinset := mem_counted.2 ⟨hnamed, hpos⟩
  rw [← sub_pos, h.projected_sub]
  refine div_pos ?_ (by exact_mod_cast Finset.card_pos.2 ⟨name, hmem⟩)
  exact Finset.sum_pos' (fun other _ => h.gap_nonneg other)
    ⟨name, hmem, div_pos (sub_pos.2 hlt) hpos⟩

end IsFuller

section Scores

variable {capacity fuller emptier demand : Bundle Rat} (h : IsFuller capacity fuller emptier demand)

include h

/-- The nodes differ in nearness to the average by no more than in fullness. -/
theorem IsFuller.nearness_le (average : Rat) :
    |nearness (utilization capacity fuller) average - nearness (utilization capacity emptier) average|
      ≤ projected capacity fuller demand - projected capacity emptier demand := by
  refine (abs_nearness_sub_le _ _ average).trans ?_
  rw [abs_of_nonneg (sub_nonneg.2 h.utilization_le)]
  exact h.utilization_sub_le

theorem IsFuller.packing_gain (average : Rat) :
    60 * (projected capacity fuller demand - projected capacity emptier demand)
      ≤ weightedScore capacity fuller demand Weights.forPacking average
        - weightedScore capacity emptier demand Weights.forPacking average := by
  have hpull := abs_le.1 (h.nearness_le average)
  rw [weightedScore_forPacking, weightedScore_forPacking]
  linarith [hpull.1]

theorem IsFuller.spreading_gain (average : Rat) :
    60 * (projected capacity fuller demand - projected capacity emptier demand)
      ≤ weightedScore capacity emptier demand Weights.forSpreading average
        - weightedScore capacity fuller demand Weights.forSpreading average := by
  have hpull := abs_le.1 (h.nearness_le average)
  rw [weightedScore_forSpreading, weightedScore_forSpreading]
  linarith [hpull.2]

end Scores

/-- **The average never overturns what a strategy prefers.** Of two nodes of one capacity that differ only in
what the demand names, and that both have room for it, the packing strategies score the fuller one at least as
high and the spreading strategies the emptier one, at every average utilization. If the nodes differ at all,
the score is higher. -/
theorem preference_kept {capacity fuller emptier demand : Bundle Rat}
    (h : IsFuller capacity fuller emptier demand) (strategy : Strategy) (average : Rat) :
    ∃ s t, score? capacity fuller demand (Weights.ofStrategy strategy) average = some s
      ∧ score? capacity emptier demand (Weights.ofStrategy strategy) average = some t
      ∧ (strategy = .pack ∨ strategy = .strictPack →
          t ≤ s ∧ ((∃ name, Bundle.amount fuller name ≠ Bundle.amount emptier name) → t < s))
      ∧ (strategy = .spread ∨ strategy = .strictSpread →
          s ≤ t ∧ ((∃ name, Bundle.amount fuller name ≠ Bundle.amount emptier name) → s < t)) := by
  have hgain : 0 ≤ projected capacity fuller demand - projected capacity emptier demand :=
    (sub_nonneg.2 h.utilization_le).trans h.utilization_sub_le
  have hdiffer : (∃ name, Bundle.amount fuller name ≠ Bundle.amount emptier name) →
      0 < projected capacity fuller demand - projected capacity emptier demand :=
    fun ⟨_, hname⟩ => sub_pos.2 (h.projected_lt hname)
  have hpacking := h.packing_gain average
  have hspreading := h.spreading_gain average
  refine ⟨_, _, if_pos h.covers, if_pos h.covers_emptier, fun hpacks => ?_, fun hspreads => ?_⟩
  · have hweights : Weights.ofStrategy strategy = (Weights.forPacking : Weights Rat) := by
      rcases hpacks with rfl | rfl <;> rfl
    rw [hweights]
    refine ⟨by linarith, fun hname => ?_⟩
    have hpositive := hdiffer hname
    linarith
  · have hweights : Weights.ofStrategy strategy = (Weights.forSpreading : Weights Rat) := by
      rcases hspreads with rfl | rfl <;> rfl
    rw [hweights]
    refine ⟨by linarith, fun hname => ?_⟩
    have hpositive := hdiffer hname
    linarith

/-- The average is just the utilization of the emptier node, and packing still scores the fuller one higher. -/
theorem preference_kept_pair :
    let node (cpu memory : Rat) : Bundle Rat := (NameMap.empty.insert "CPU" cpu).insert "memory" memory
    let demand : Bundle Rat := (NameMap.empty.insert "CPU" 1).insert "GPU" 0
    let average := utilization (node 4 8) (node 2 3)
    IsFuller (node 4 8) (node 1 3) (node 2 3) demand
      ∧ ∃ s t, score? (node 4 8) (node 1 3) demand (Weights.ofStrategy .strictPack) average = some s
        ∧ score? (node 4 8) (node 2 3) demand (Weights.ofStrategy .strictPack) average = some t ∧ t < s := by
  intro node demand average
  have hamount : ∀ cpu memory name, Bundle.amount (node cpu memory) name
      = if name = "memory" then memory else if name = "CPU" then cpu else 0 := by
    intro cpu memory name
    simp only [node, Bundle.amount, NameMap.find?_insert, NameMap.find?_empty, eq_comm (b := name)]
    split_ifs <;> simp
  have h : IsFuller (node 4 8) (node 1 3) (node 2 3) demand := by
    refine ⟨fun name => ?_, fun name => ?_, fun name => ?_, fun name hunnamed => ?_, by decide +kernel⟩
    · rw [hamount]
      split_ifs <;> norm_num
    · rw [hamount, hamount]
      split_ifs <;> norm_num
    · rw [hamount, hamount]
      split_ifs <;> norm_num
    · rw [hamount, hamount]
      split_ifs with hmemory hcpu
      · rfl
      · exact absurd (by rw [hcpu]; decide +kernel) hunnamed
      · rfl
  obtain ⟨s, t, hs, ht, hpacks, -⟩ := preference_kept h .strictPack average
  exact ⟨h, s, t, hs, ht, (hpacks (.inr rfl)).2 ⟨"CPU", by decide +kernel⟩⟩

end ActorPlacement
