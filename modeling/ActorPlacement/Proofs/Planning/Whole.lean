import ActorPlacement.Proofs.Planning.Completeness

/-!
# Requests that go to one node

With `strictPack`, and when there is a single bundle, all of a request lies on one node. Such a request is
placed exactly when some node in use covers its total (`plan?_isSome_iff_of_whole`). So what fits nowhere
goes on fitting nowhere while nodes only give bundles out or start to drain (`Shrinks`).
-/

namespace ActorPlacement

/-- Whether all of a request lies on one node. -/
def GoesWhole {Q : Type} (strategy : Strategy) (bundles : List (Bundle Q)) : Prop :=
  strategy = .strictPack ∨ bundles.length = 1

/-- Every node in use was in use before, and had no less. -/
def Shrinks (before after : List (Node Rat)) : Prop :=
  ∀ (place : Nat) (n : Node Rat), after[place]? = some n → n.draining = false →
    ∃ m, before[place]? = some m ∧ m.draining = false
      ∧ ∀ name, Bundle.amount n.free name ≤ Bundle.amount m.free name

variable {nodes after : List (Node Rat)} {bundles : List (Bundle Rat)} {strategy : Strategy}
  {places : List Nat} {place : Nat}

/-! ## Where a request goes -/

/-- The total of a single bundle asks for what the bundle asks for. -/
theorem canTake_total_singleton {b : Bundle Rat} (hb : Bundle.fault? b = none) :
    CanTake nodes place (Bundle.total [b]) ↔ CanTake nodes place b := by
  refine exists_congr fun n => and_congr_right fun _ => and_congr_right fun _ => ?_
  have hcons : Bundle.covers n.free (Bundle.total [b]) = true ↔ Bundle.covers n.free b = true
      ∧ Bundle.covers (Bundle.subtract n.free b) (Bundle.total []) = true :=
    Bundle.covers_total_cons hb fun _ h => by cases h
  rw [hcons]
  exact and_iff_left (Bundle.covers_total_nil _)

/-- A plan for a request that goes to one node names that node for every bundle. -/
theorem exists_canTake_of_plan? (hwhole : GoesWhole strategy bundles)
    (hvalid : ∀ b ∈ bundles, Bundle.fault? b = none)
    (hplan : plan? nodes bundles strategy = some places) :
    ∃ place, CanTake nodes place (Bundle.total bundles)
      ∧ places = List.replicate bundles.length place := by
  rcases plan?_cases hplan with ⟨-, htogether⟩ | ⟨hstrategy, heach⟩
  · exact Plan.together?_sound htogether
  · obtain ⟨b, rfl⟩ := List.length_eq_one_iff.1 (hwhole.resolve_left hstrategy)
    obtain ⟨place, hplace, rfl⟩ := (Plan.each?_singleton_eq_some b).1 heach
    have hb := hvalid b List.mem_cons_self
    exact ⟨place, (canTake_total_singleton hb).2 (Plan.Board.choose?_sound hplace).1, rfl⟩

/-- Who covers the total of a request that goes to one node makes a plan possible. -/
theorem plan?_isSome_of_canTake (hwhole : GoesWhole strategy bundles)
    (hvalid : ∀ b ∈ bundles, Bundle.fault? b = none)
    (hcan : CanTake nodes place (Bundle.total bundles)) : (plan? nodes bundles strategy).isSome := by
  by_cases hstrategy : strategy = .strictPack
  · subst hstrategy
    exact Plan.together?_isSome_iff.2 ⟨place, hcan⟩
  · obtain ⟨b, rfl⟩ := List.length_eq_one_iff.1 (hwhole.resolve_left hstrategy)
    have hb := (canTake_total_singleton (hvalid b List.mem_cons_self)).1 hcan
    obtain ⟨n, hn, -⟩ := hcan
    have hchoice : ((Plan.Board.on nodes (nodes.map fun _ => false)).choose? strategy b).isSome :=
      Plan.Board.choose?_isSome hb fun _ => getElem?_unused hn
    obtain ⟨q, hq⟩ := Option.isSome_iff_exists.1 hchoice
    exact plan?_isSome_of_each hstrategy (Plan.each?_cons_isSome hq rfl)

/-- A request that goes to one node is placed exactly when a node in use covers its total. -/
theorem plan?_isSome_iff_of_whole (hwhole : GoesWhole strategy bundles)
    (hvalid : ∀ b ∈ bundles, Bundle.fault? b = none) :
    (plan? nodes bundles strategy).isSome ↔ ∃ place, CanTake nodes place (Bundle.total bundles) := by
  constructor
  · intro h
    obtain ⟨places, hplan⟩ := Option.isSome_iff_exists.1 h
    obtain ⟨place, hcan, -⟩ := exists_canTake_of_plan? hwhole hvalid hplan
    exact ⟨place, hcan⟩
  · rintro ⟨place, hcan⟩
    exact plan?_isSome_of_canTake hwhole hvalid hcan

/-! ## Nodes that have less -/

theorem Shrinks.canTake (h : Shrinks nodes after) {b : Bundle Rat} (hcan : CanTake after place b) :
    CanTake nodes place b := by
  obtain ⟨n, hn, hin, hcovers⟩ := hcan
  obtain ⟨m, hm, hin, hle⟩ := h place n hn hin
  refine ⟨m, hm, hin, Bundle.covers_iff.2 fun name hname => ?_⟩
  exact (Bundle.covers_iff.1 hcovers name hname).trans (hle name)

/-- What is taken for a plan leaves no node more than it had. -/
theorem shrinks_takeAll (hvalid : ∀ b ∈ bundles, Bundle.fault? b = none)
    (hplan : plan? nodes bundles strategy = some places) :
    Shrinks nodes (Cluster.takeAll nodes (bundles.zip places)) := by
  intro place n hn hin
  rw [getElem?_takeAll] at hn
  obtain ⟨m, hm, rfl⟩ := Option.map_eq_some_iff.1 hn
  refine ⟨m, hm, hin, fun name => ?_⟩
  have hpos : 0 ≤ ((bundlesOn (bundles.zip places) place).map (Bundle.amount · name)).sum :=
    Bundle.sum_amount_nonneg (fun b hb => hvalid b (mem_of_mem_bundlesOn hb)) name
  rw [amount_takeAll hplan hvalid hm name]
  linarith

theorem shrinks_drain (nodes : List (Node Rat)) (place : Nat) :
    Shrinks nodes (nodes.modify place fun n => { n with draining := true }) := by
  intro i n hn hin
  rw [List.getElem?_modify] at hn
  obtain ⟨m, hm, rfl⟩ := Option.map_eq_some_iff.1 hn
  split at hin
  · cases hin
  · rename_i hne
    rw [if_neg hne]
    exact ⟨m, hm, hin, fun name => le_refl _⟩

end ActorPlacement
