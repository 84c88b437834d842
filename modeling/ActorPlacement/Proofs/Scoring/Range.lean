import ActorPlacement.Proofs.Cluster.Conservation
import ActorPlacement.Proofs.Scoring.Means
import ActorPlacement.Proofs.Scoring.Ranking

/-!
# The range of scores

Shares are parts of a whole, so means of them and the average utilization lie between zero and one, and scores
between zero and a hundred (`scores_in_range`). Fullness needs that no more is free than there is, which is so
in every cluster (`Cluster.Balanced.free_le_zip`). Whatever division by zero might answer, the answer is never
used: with any such division (`Quantity.exactDividing`) scores come out the same.
-/

namespace ActorPlacement

variable {capacities free : List (Bundle Rat)} {demand : Bundle Rat}

/-! ## Parts of one -/

theorem utilization_mem_unit (capacity available : Bundle Rat) :
    0 ≤ utilization capacity available ∧ utilization capacity available ≤ 1 := by
  rw [utilization_rat]
  exact meanOver_mem_unit fun name _ => usedShare_mem_unit _ _

/-- A node that has no more free than it has is full in part of what a valid demand asks for. -/
theorem projected_mem_unit {capacity available : Bundle Rat}
    (hfree : ∀ name, Bundle.amount available name ≤ Bundle.amount capacity name)
    (hdemand : Bundle.fault? demand = none) :
    0 ≤ projected capacity available demand ∧ projected capacity available demand ≤ 1 := by
  rw [projected_rat]
  refine meanOver_mem_unit fun name hname => ?_
  exact projectedShare_mem_unit (mem_counted.1 hname).2 (hfree name) (Bundle.amount_nonneg hdemand name)

theorem nearness_mem_unit (nodeUtilization average : Rat) :
    0 ≤ nearness nodeUtilization average ∧ nearness nodeUtilization average ≤ 1 :=
  ⟨le_max_right _ _, max_le (sub_le_self 1 (abs_nonneg _)) zero_le_one⟩

theorem averageUtilization_rat (capacities free : List (Bundle Rat)) :
    averageUtilization capacities free = if capacities = [] then 1 / 2
      else ((capacities.zip free).map fun n => utilization n.1 n.2).sum / capacities.length := by
  simp only [averageUtilization, Quantity.zero_rat, Quantity.ofInt_rat, Int.cast_natCast, List.sum_eq_foldl,
    List.foldl_map, List.isEmpty_iff]
  split
  · decide +kernel
  · rfl

theorem averageUtilization_mem_unit (capacities free : List (Bundle Rat)) :
    0 ≤ averageUtilization capacities free ∧ averageUtilization capacities free ≤ 1 := by
  rw [averageUtilization_rat]
  split
  · norm_num
  · rename_i hsome
    have hcount : (0 : Rat) < capacities.length := by
      exact_mod_cast List.length_pos_iff.2 hsome
    have hterms : ∀ x ∈ (capacities.zip free).map fun n => utilization n.1 n.2, 0 ≤ x ∧ x ≤ 1 := by
      intro x hx
      obtain ⟨n, -, rfl⟩ := List.mem_map.1 hx
      exact utilization_mem_unit n.1 n.2
    have hsum : ((capacities.zip free).map fun n => utilization n.1 n.2).sum ≤ capacities.length := by
      refine (List.sum_le_card_nsmul _ 1 fun x hx => (hterms x hx).2).trans ?_
      simp
    exact ⟨div_nonneg (List.sum_nonneg fun x hx => (hterms x hx).1) hcount.le, (div_le_one hcount).2 hsum⟩

theorem weightedScore_mem_range {capacity available : Bundle Rat}
    (hfree : ∀ name, Bundle.amount available name ≤ Bundle.amount capacity name)
    (hdemand : Bundle.fault? demand = none) (strategy : Strategy) (average : Rat) :
    0 ≤ weightedScore capacity available demand (Weights.ofStrategy strategy) average
      ∧ weightedScore capacity available demand (Weights.ofStrategy strategy) average ≤ 100 := by
  obtain ⟨hlow, hhigh⟩ := projected_mem_unit hfree hdemand
  obtain ⟨hfar, hnear⟩ := nearness_mem_unit (utilization capacity available) average
  cases strategy with
  | pack | strictPack =>
    rw [Weights.ofStrategy, weightedScore_forPacking]
    constructor <;> linarith
  | spread | strictSpread =>
    rw [Weights.ofStrategy, weightedScore_forSpreading]
    constructor <;> linarith

/-! ## Division by zero -/

/-- Exact quantities with some answers to divisions by zero. -/
@[reducible] def Quantity.exactDividing (byZero : Rat → Rat) : Quantity Rat :=
  { (inferInstance : Quantity Rat) with div := fun a b => if b = 0 then byZero a else a / b }

section Dividing

variable (byZero : Rat → Rat)

/-- Means divide by the number of their terms, and only if there are any. -/
theorem mean_exactDividing (t : Tally Rat) :
    @Tally.mean Rat (Quantity.exactDividing byZero) t = t.mean := by
  unfold Tally.mean
  by_cases hnone : t.count = 0
  · rw [if_pos hnone, if_pos hnone]
  · have hcount : (Quantity.ofInt t.count : Rat) ≠ 0 := by
      simpa using hnone
    rw [if_neg hnone, if_neg hnone]
    exact if_neg hcount

theorem usedShare_exactDividing {all : Rat} (hall : all ≠ 0) (left : Rat) :
    @usedShare Rat (Quantity.exactDividing byZero) all left = usedShare all left := by
  show Quantity.clampToUnit (if all = 0 then _ else (all - left) / all) = usedShare all left
  rw [if_neg hall, usedShare]

theorem projectedShare_exactDividing {all : Rat} (hall : all ≠ 0) (left asked : Rat) :
    @projectedShare Rat (Quantity.exactDividing byZero) all left asked = projectedShare all left asked := by
  show Quantity.capAtOne (if all = 0 then _ else (all - left + asked) / all) = projectedShare all left asked
  rw [if_neg hall, projectedShare]

theorem ne_zero_of_exceeds {all : Rat} (h : Quantity.exceeds all Quantity.zero = true) : all ≠ 0 := by
  simp only [Quantity.exceeds_rat, Quantity.zero_rat, decide_eq_true_eq] at h
  exact ne_of_gt h

/-- Shares divide by capacities, and only by those above zero. -/
theorem utilization_exactDividing (capacity available : Bundle Rat) :
    @utilization Rat (Quantity.exactDividing byZero) capacity available
      = utilization capacity available := by
  unfold utilization
  refine (mean_exactDividing byZero _).trans ?_
  refine congrArg (fun step => (List.foldl step Tally.none capacity.entries).mean) ?_
  funext t e
  by_cases hpos : Quantity.exceeds e.2 Quantity.zero = true
  · rw [if_pos hpos]
    refine (if_pos hpos).trans (congrArg t.add ?_)
    exact usedShare_exactDividing byZero (ne_zero_of_exceeds hpos) _
  · rw [if_neg hpos]
    exact if_neg hpos

theorem projected_exactDividing (capacity available demand : Bundle Rat) :
    @projected Rat (Quantity.exactDividing byZero) capacity available demand
      = projected capacity available demand := by
  unfold projected
  refine (mean_exactDividing byZero _).trans ?_
  refine congrArg (fun step => (List.foldl step Tally.none demand.entries).mean) ?_
  funext t e
  by_cases hpos : Quantity.exceeds (Bundle.amount capacity e.1) Quantity.zero = true
  · refine (if_pos hpos).trans ((congrArg t.add ?_).trans (if_pos hpos).symm)
    exact projectedShare_exactDividing byZero (ne_zero_of_exceeds hpos) _ _
  · exact (if_neg hpos).trans (if_neg hpos).symm

theorem averageUtilization_exactDividing (capacities free : List (Bundle Rat)) :
    @averageUtilization Rat (Quantity.exactDividing byZero) capacities free
      = averageUtilization capacities free := by
  unfold averageUtilization
  by_cases hnone : capacities.isEmpty = true
  · rw [if_pos hnone, if_pos hnone]
  · have hcount : (Quantity.ofInt capacities.length : Rat) ≠ 0 := by
      simpa using hnone
    rw [if_neg hnone, if_neg hnone]
    simp only [utilization_exactDividing]
    exact if_neg hcount

theorem score?_exactDividing (capacity available demand : Bundle Rat) (weights : Weights Rat)
    (average : Rat) :
    @score? Rat (Quantity.exactDividing byZero) capacity available demand weights average
      = score? capacity available demand weights average := by
  unfold score? weightedScore
  simp only [utilization_exactDividing, projected_exactDividing]
  rfl

theorem insertWorstFirst_exactDividing (x : Scored Rat) (sorted : List (Scored Rat)) :
    @insertWorstFirst Rat (Quantity.exactDividing byZero) x sorted = insertWorstFirst x sorted := by
  induction sorted with
  | nil => rfl
  | cons y rest ih =>
    unfold insertWorstFirst
    rw [ih]
    rfl

theorem rank_exactDividing (capacities free : List (Bundle Rat)) (eligible : List Bool)
    (demand : Bundle Rat) (weights : Weights Rat) :
    @rank Rat (Quantity.exactDividing byZero) capacities free eligible demand weights
      = rank capacities free eligible demand weights := by
  unfold rank bestFirst
  simp only [averageUtilization_exactDividing, score?_exactDividing, insertWorstFirst_exactDividing]

end Dividing

/-! ## The range -/

/-- No more is free than there is on any node of a balanced cluster. -/
theorem Cluster.Balanced.free_le_zip {c : Cluster Rat} (h : Balanced c) :
    ∀ p ∈ (c.nodes.map Node.capacity).zip (c.nodes.map Node.free), ∀ name,
      Bundle.amount p.2 name ≤ Bundle.amount p.1 name := by
  intro p hp name
  rw [List.zip_map', List.mem_map] at hp
  obtain ⟨n, hn, rfl⟩ := hp
  obtain ⟨place, hplace⟩ := List.getElem?_of_mem hn
  exact h.free_le_capacity hplace name

/-- **Scores stay in their range.** For nodes on which no more is free than there is, and a demand without
fault, the average utilization lies between zero and one, and every score that a strategy's weights give
between zero and a hundred. No step divides by zero, whatever the weights: with any answers to divisions by
zero the average and the scores are the same. -/
theorem scores_in_range
    (hfree : ∀ p ∈ capacities.zip free, ∀ name, Bundle.amount p.2 name ≤ Bundle.amount p.1 name)
    (hdemand : Bundle.fault? demand = none) (eligible : List Bool) (strategy : Strategy) :
    (0 ≤ averageUtilization capacities free ∧ averageUtilization capacities free ≤ 1)
      ∧ (∀ s ∈ rank capacities free eligible demand (Weights.ofStrategy strategy),
          0 ≤ s.score ∧ s.score ≤ 100)
      ∧ ∀ (byZero : Rat → Rat) (weights : Weights Rat),
          @averageUtilization Rat (Quantity.exactDividing byZero) capacities free
              = averageUtilization capacities free
            ∧ @rank Rat (Quantity.exactDividing byZero) capacities free eligible demand weights
              = rank capacities free eligible demand weights := by
  refine ⟨averageUtilization_mem_unit capacities free, fun s hs => ?_, fun byZero weights =>
    ⟨averageUtilization_exactDividing byZero capacities free,
      rank_exactDividing byZero capacities free eligible demand weights⟩⟩
  obtain ⟨capacity, available, hcapacity, havailable, -, hscore⟩ := mem_rank.1 hs
  have hnode : ∀ name, Bundle.amount available name ≤ Bundle.amount capacity name :=
    hfree (capacity, available) (List.mem_of_getElem? (List.getElem?_zip_eq_some.2 ⟨hcapacity, havailable⟩))
  rw [← (score?_eq_some_iff.1 hscore).2]
  exact weightedScore_mem_range hnode hdemand strategy _

/-- Of the nodes of a cluster one has nothing of a resource, one has no resources and one is partly in use. The
demand names a resource that none of them has. -/
theorem scores_in_range_three :
    let cpus (q : Rat) : Bundle Rat := NameMap.empty.insert "CPU" q
    let c : Cluster Rat := Cluster.ofNodes
      [Node.idle "a" ((cpus 4).insert "GPU" 0) false, Node.idle "b" NameMap.empty false,
        Node.idle "c" (cpus 2) false]
    let nodes := (c.run [.submit [cpus 1] .pack]).nodes
    let ranked := rank (nodes.map Node.capacity) (nodes.map Node.free) [true, true, true]
      ((cpus 1).insert "TPU" 0) (Weights.ofStrategy .spread)
    ranked.map Scored.index = [0, 2] ∧ ∀ s ∈ ranked, 0 ≤ s.score ∧ s.score ≤ 100 := by
  intro cpus c nodes ranked
  have hbuilt : Cluster.Built c := .ofNodes _ (by simp [Node.idle])
  have hfree := (Cluster.balanced_run hbuilt [.submit [cpus 1] .pack]).free_le_zip
  exact ⟨by decide +kernel, (scores_in_range hfree (by decide +kernel) _ .spread).2.1⟩

end ActorPlacement
