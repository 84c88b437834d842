import ActorPlacement.Cluster.Plan

/-!
# Which node is chosen for a bundle

Ranking lists exactly the eligible nodes that a bundle fits (`exists_mem_rank`), so a choice is a node
that can take the bundle (`Board.choose?_sound`), and one is made whenever a node can
(`Board.choose?_isSome`). Scores only decide between such nodes. `spread` makes the choices of
`strictSpread` as long as there are any (`Board.choose?_spread`). Nothing here depends on how quantities
are counted.
-/

namespace ActorPlacement

variable {Q : Type} [Quantity Q]

/-! ## The ranking -/

theorem insertWorstFirst_perm (x : Scored Q) (sorted : List (Scored Q)) :
    (insertWorstFirst x sorted).Perm (x :: sorted) := by
  induction sorted with
  | nil => exact List.Perm.refl _
  | cons y rest ih =>
    simp only [insertWorstFirst]
    split
    · exact (ih.cons y).trans (List.Perm.swap x y rest)
    · exact List.Perm.refl _

theorem bestFirst_perm (scores : List (Scored Q)) : (bestFirst scores).Perm scores := by
  have hfold : ∀ (scores sorted : List (Scored Q)),
      (scores.foldl (fun sorted x => insertWorstFirst x sorted) sorted).Perm (scores ++ sorted) := by
    intro scores
    induction scores with
    | nil => exact fun sorted => List.Perm.refl _
    | cons x rest ih =>
      intro sorted
      refine (ih (insertWorstFirst x sorted)).trans ?_
      exact ((insertWorstFirst_perm x sorted).append_left rest).trans List.perm_middle
  have h := hfold scores []
  rw [List.append_nil] at h
  exact (List.reverse_perm _).trans h

theorem score?_eq_some_iff {capacity available demand : Bundle Q} {weights : Weights Q} {average score : Q} :
    score? capacity available demand weights average = some score
      ↔ Bundle.covers available demand = true
        ∧ weightedScore capacity available demand weights average = score := by
  rw [score?, Option.ite_none_right_eq_some, Option.some.injEq]

theorem mem_rank {capacities free : List (Bundle Q)} {eligible : List Bool} {demand : Bundle Q}
    {weights : Weights Q} {s : Scored Q} :
    s ∈ rank capacities free eligible demand weights
      ↔ ∃ capacity available, capacities[s.index]? = some capacity ∧ free[s.index]? = some available
          ∧ eligible[s.index]? = some true
          ∧ score? capacity available demand weights (averageUtilization capacities free)
              = some s.score := by
  simp only [rank, (bestFirst_perm _).mem_iff, List.mem_filterMap, Prod.exists,
    List.mem_zipIdx_iff_getElem?]
  constructor
  · rintro ⟨capacity, available, index, hnode, hs⟩
    obtain ⟨hcapacity, hfree⟩ := List.getElem?_zip_eq_some.1 hnode
    split at hs
    · rename_i heligible
      obtain ⟨score, hscore, rfl⟩ := Option.map_eq_some_iff.1 hs
      have htrue : eligible[index]? = some true := by
        cases he : eligible[index]? with
        | none => simp [he] at heligible
        | some ok => simpa [he] using heligible
      exact ⟨capacity, available, hcapacity, hfree, htrue, hscore⟩
    · cases hs
  · rintro ⟨capacity, available, hcapacity, hfree, htrue, hscore⟩
    refine ⟨capacity, available, s.index, List.getElem?_zip_eq_some.2 ⟨hcapacity, hfree⟩, ?_⟩
    rw [htrue, hscore]
    rfl

theorem exists_mem_rank {capacities free : List (Bundle Q)} {eligible : List Bool}
    {demand : Bundle Q} {weights : Weights Q} {place : Nat} :
    (∃ s ∈ rank capacities free eligible demand weights, s.index = place)
      ↔ ∃ capacity available, capacities[place]? = some capacity ∧ free[place]? = some available
          ∧ eligible[place]? = some true ∧ Bundle.covers available demand = true := by
  constructor
  · rintro ⟨s, hs, rfl⟩
    obtain ⟨capacity, available, hcapacity, hfree, htrue, hscore⟩ := mem_rank.1 hs
    exact ⟨capacity, available, hcapacity, hfree, htrue, (score?_eq_some_iff.1 hscore).1⟩
  · rintro ⟨capacity, available, hcapacity, hfree, htrue, hcovers⟩
    refine ⟨⟨place, weightedScore capacity available demand weights
      (averageUtilization capacities free)⟩, mem_rank.2 ?_, rfl⟩
    exact ⟨capacity, available, hcapacity, hfree, htrue, score?_eq_some_iff.2 ⟨hcovers, rfl⟩⟩

/-! ## The choice -/

/-- The node in some place is in use and has room for a bundle. -/
def CanTake (nodes : List (Node Q)) (place : Nat) (bundle : Bundle Q) : Prop :=
  ∃ n, nodes[place]? = some n ∧ n.draining = false ∧ Bundle.covers n.free bundle = true

theorem CanTake.covers {nodes : List (Node Q)} {place : Nat} {bundle : Bundle Q}
    (h : CanTake nodes place bundle) {n : Node Q} (hn : nodes[place]? = some n) :
    Bundle.covers n.free bundle = true := by
  obtain ⟨m, hm, -, hcovers⟩ := h
  rw [hn] at hm
  cases hm
  exact hcovers

theorem canTake_iff_any {nodes : List (Node Q)} {place : Nat} {bundle : Bundle Q} :
    CanTake nodes place bundle
      ↔ (nodes[place]?.any fun n => !n.draining && Bundle.covers n.free bundle) = true := by
  simp [CanTake, Option.any_eq_true]

instance (nodes : List (Node Q)) (place : Nat) (bundle : Bundle Q) :
    Decidable (CanTake nodes place bundle) :=
  decidable_of_iff _ canTake_iff_any.symm

namespace Plan.Board

/-- The board of some nodes of which a plan uses some. -/
def on (nodes : List (Node Q)) (used : List Bool) : Board Q where
  capacities := nodes.map Node.capacity
  free := nodes.map Node.free
  schedulable := nodes.map fun n => !n.draining
  used := used

theorem exists_mem_ranked {nodes : List (Node Q)} (used : List Bool) {demand : Bundle Q}
    (weights : Weights Q) {place : Nat} :
    (∃ s ∈ (on nodes used).ranked demand weights, s.index = place) ↔ CanTake nodes place demand := by
  rw [ranked, exists_mem_rank]
  simp only [on, CanTake, List.getElem?_map, Option.map_eq_some_iff]
  constructor
  · rintro ⟨_, _, ⟨n, hn, rfl⟩, ⟨m, hm, rfl⟩, ⟨k, hk, hin⟩, hcovers⟩
    rw [hn] at hm hk
    cases hm
    cases hk
    exact ⟨n, hn, by simpa using hin, hcovers⟩
  · rintro ⟨n, hn, hin, hcovers⟩
    exact ⟨_, _, ⟨n, hn, rfl⟩, ⟨n, hn, rfl⟩, ⟨n, hn, by simp [hin]⟩, hcovers⟩

theorem exists_mem_rankedUnused {nodes : List (Node Q)} {used : List Bool} {demand : Bundle Q}
    (weights : Weights Q) {place : Nat} :
    (∃ s ∈ (on nodes used).rankedUnused demand weights, s.index = place)
      ↔ CanTake nodes place demand ∧ used[place]? = some false := by
  rw [rankedUnused, exists_mem_rank]
  simp only [on, CanTake, List.getElem?_map, Option.map_eq_some_iff, List.getElem?_zipWith_eq_some]
  constructor
  · rintro ⟨_, _, ⟨n, hn, rfl⟩, ⟨m, hm, rfl⟩, ⟨_, taken, ⟨k, hk, rfl⟩, htaken, hin⟩, hcovers⟩
    rw [hn] at hm hk
    cases hm
    cases hk
    simp only [Bool.and_eq_true, Bool.not_eq_true'] at hin
    exact ⟨⟨n, hn, hin.1, hcovers⟩, by rw [htaken, hin.2]⟩
  · rintro ⟨⟨n, hn, hin, hcovers⟩, hunused⟩
    exact ⟨_, _, ⟨n, hn, rfl⟩, ⟨n, hn, rfl⟩, ⟨_, false, ⟨n, hn, rfl⟩, hunused, by simp [hin]⟩, hcovers⟩

/-- A chosen node can take the bundle; `strictSpread` chooses only what is not used yet. -/
theorem choose?_sound {nodes : List (Node Q)} {used : List Bool} {strategy : Strategy}
    {demand : Bundle Q} {place : Nat} (h : (on nodes used).choose? strategy demand = some place) :
    CanTake nodes place demand ∧ (strategy = .strictSpread → used[place]? = some false) := by
  have hranked : ∀ s ∈ (on nodes used).ranked demand (Weights.ofStrategy strategy),
      CanTake nodes s.index demand := fun s hs => (exists_mem_ranked used _).1 ⟨s, hs, rfl⟩
  have hunused : ∀ s ∈ (on nodes used).rankedUnused demand (Weights.ofStrategy strategy),
      CanTake nodes s.index demand ∧ used[s.index]? = some false :=
    fun s hs => (exists_mem_rankedUnused _).1 ⟨s, hs, rfl⟩
  cases strategy with
  | pack | strictPack =>
    obtain ⟨s, hs, rfl⟩ := Option.map_eq_some_iff.1 h
    refine ⟨hranked s ?_, fun hs => by cases hs⟩
    simp only [Option.orElse_eq_orElse, Option.orElse_eq_or] at hs
    rcases Option.or_eq_some_iff.1 hs with hfound | ⟨-, hhead⟩
    · exact List.mem_of_find?_eq_some hfound
    · exact List.mem_of_head? hhead
  | spread =>
    obtain ⟨s, hs, rfl⟩ := Option.map_eq_some_iff.1 h
    refine ⟨?_, fun hs => by cases hs⟩
    simp only [Option.orElse_eq_orElse, Option.orElse_eq_or] at hs
    rcases Option.or_eq_some_iff.1 hs with hfirst | ⟨-, hsecond⟩
    · exact (hunused s (List.mem_of_head? hfirst)).1
    · exact hranked s (List.mem_of_head? hsecond)
  | strictSpread =>
    obtain ⟨s, hs, rfl⟩ := Option.map_eq_some_iff.1 h
    obtain ⟨hcan, hfree⟩ := hunused s (List.mem_of_head? hs)
    exact ⟨hcan, fun _ => hfree⟩

/-- A choice is made whenever a node can take the bundle, for `strictSpread` one not used yet. -/
theorem choose?_isSome {nodes : List (Node Q)} {used : List Bool} {strategy : Strategy}
    {demand : Bundle Q} {place : Nat} (hcan : CanTake nodes place demand)
    (hunused : strategy = .strictSpread → used[place]? = some false) :
    ((on nodes used).choose? strategy demand).isSome := by
  obtain ⟨s, hs, -⟩ := (exists_mem_ranked used (Weights.ofStrategy strategy)).2 hcan
  have hhead : ((on nodes used).ranked demand (Weights.ofStrategy strategy)).head?.isSome :=
    List.isSome_head?.2 (List.ne_nil_of_mem hs)
  cases strategy with
  | pack | strictPack | spread =>
    simp only [choose?, Option.isSome_map, Option.orElse_eq_orElse, Option.orElse_eq_or,
      Option.isSome_or, hhead, Bool.or_true]
  | strictSpread =>
    obtain ⟨s, hs, -⟩ := (exists_mem_rankedUnused (Weights.ofStrategy .strictSpread)).2
      ⟨hcan, hunused rfl⟩
    rw [choose?, Option.isSome_map]
    exact List.isSome_head?.2 (List.ne_nil_of_mem hs)

/-- `spread` chooses as `strictSpread` does, and falls back to any node that can take the bundle. -/
theorem choose?_spread (board : Board Q) (demand : Bundle Q) :
    board.choose? .spread demand = (board.choose? .strictSpread demand).or
      ((board.ranked demand (Weights.ofStrategy .spread)).head?.map Scored.index) := by
  simp only [choose?, Weights.ofStrategy, Option.orElse_eq_orElse, Option.orElse_eq_or]
  cases (board.rankedUnused demand Weights.forSpreading).head? <;> rfl

/-- What `strictSpread` chooses is what `spread` chooses when that is not used yet. -/
theorem choose?_strictSpread_eq_some_iff {nodes : List (Node Q)} {used : List Bool} {demand : Bundle Q}
    {place : Nat} : (on nodes used).choose? .strictSpread demand = some place
      ↔ (on nodes used).choose? .spread demand = some place ∧ used[place]? = some false := by
  constructor
  · intro h
    refine ⟨?_, (choose?_sound h).2 rfl⟩
    rw [choose?_spread, h, Option.some_or]
  · rintro ⟨h, hunused⟩
    have hsome : ((on nodes used).choose? .strictSpread demand).isSome :=
      choose?_isSome (choose?_sound h).1 fun _ => hunused
    obtain ⟨q, hq⟩ := Option.isSome_iff_exists.1 hsome
    rw [choose?_spread, hq, Option.some_or] at h
    rw [hq, h]

end Plan.Board

end ActorPlacement
