import ActorPlacement.Proofs.Cluster.Conservation
import ActorPlacement.Proofs.Cluster.Frame
import ActorPlacement.Proofs.Planning.Agreement

/-!
# Refusals are final

A request is refused by what the nodes have, and planned by what is free on them. Nothing is free beyond
what a node has, so whatever can be planned is admissible (`Balanced.admissible_of_plan?`). What the nodes
have changes only when one joins. So who is refused would have waited in vain as long as no node joins
(`refused_run`).
-/

namespace ActorPlacement.Cluster

section Capacity

variable {Q : Type} [Quantity Q] {c c' : Cluster Q}

/-- Whether a request is refused depends on what the nodes have and on nothing else. -/
theorem refusal?_congr (h : c'.nodes.map Node.capacity = c.nodes.map Node.capacity)
    (bundles : List (Bundle Q)) (strategy : Strategy) :
    c'.refusal? bundles strategy = c.refusal? bundles strategy := by
  have hany : ∀ b, (c'.nodes.any fun n => Bundle.covers n.capacity b)
      = c.nodes.any fun n => Bundle.covers n.capacity b := by
    intro b
    have hboth := congrArg (List.any · fun capacity => Bundle.covers capacity b) h
    simpa [List.any_map, Function.comp_def] using hboth
  have hlength : c'.nodes.length = c.nodes.length := by
    simpa using congrArg List.length h
  simp only [refusal?, hany, hlength]

/-- A run that adds no node refuses the same requests at its end as at its beginning. -/
theorem refusal?_run {ops : List (Operation Q)} (h : c.joined ops = []) (bundles : List (Bundle Q))
    (strategy : Strategy) : (c.run ops).refusal? bundles strategy = c.refusal? bundles strategy := by
  refine refusal?_congr ?_ bundles strategy
  rw [map_nodes_run Node.capacity (fun _ _ => rfl) (fun _ _ => rfl), h, List.map_nil, List.append_nil]

end Capacity

variable {c : Cluster Rat} {bundles : List (Bundle Rat)} {strategy : Strategy} {places : List Nat}

/-- What is covered by what is free on a node is covered by what the node has. -/
theorem Balanced.covers_capacity (h : Balanced c) {n : Node Rat} (hn : n ∈ c.nodes) {demand : Bundle Rat}
    (hcovers : Bundle.covers n.free demand = true) : Bundle.covers n.capacity demand = true := by
  obtain ⟨place, hplace⟩ := List.getElem?_of_mem hn
  refine Bundle.covers_iff.2 fun name hname => ?_
  exact (Bundle.covers_iff.1 hcovers name hname).trans (h.free_le_capacity hplace name)

/-- Whatever can be planned now is admissible. -/
theorem Balanced.admissible_of_plan? (h : Balanced c) (hne : bundles ≠ [])
    (hvalid : ∀ b ∈ bundles, Bundle.fault? b = none)
    (hplan : plan? c.nodes bundles strategy = some places) : c.Admissible bundles strategy := by
  have hpermitted := plan?_permitted hplan
  refine ⟨hne, hvalid, fun b hb => ?_, ?_, ?_⟩
  · obtain ⟨place, hplace, hthere⟩ := exists_mem_bundlesOn hpermitted.length hb
    obtain ⟨n, hn, -⟩ := hpermitted.inUse place hplace
    have hfree : Bundle.covers n.free b = true :=
      Bundle.covers_of_covers_total (fun other hother => hvalid other (mem_of_mem_bundlesOn hother))
        (plan?_covers hplan hvalid hn) hthere
    have hmem := List.mem_of_getElem? hn
    exact ⟨n, hmem, h.covers_capacity hmem hfree⟩
  · rintro rfl
    obtain ⟨n, hn, -, hfree⟩ := plan?_strictPack_isSome_iff.1 (Option.isSome_iff_exists.2 ⟨places, hplan⟩)
    exact ⟨n, hn, h.covers_capacity hn hfree⟩
  · rintro rfl
    exact hpermitted.length_le

/-- **Refusals are sound.** A request of bundles without fault that is refused in a state of a run cannot be
placed there, nor in any later state as long as no node joins, whatever is released, drained or taken back
into use meanwhile. It goes on being refused for the same reason. -/
theorem refused_run (h : Built c) (ops later : List (Operation Rat)) (hne : bundles ≠ [])
    (hvalid : ∀ b ∈ bundles, Bundle.fault? b = none) {why : Refusal Rat}
    (hrefused : (c.run ops).refusal? bundles strategy = some why)
    (hsame : (c.run ops).joined later = []) :
    plan? (c.run ops).nodes bundles strategy = none
      ∧ plan? ((c.run ops).run later).nodes bundles strategy = none
      ∧ ((c.run ops).run later).submit bundles strategy = ((c.run ops).run later, .error why) := by
  have hunplanned : ∀ {d : Cluster Rat}, Balanced d → d.refusal? bundles strategy = some why →
      plan? d.nodes bundles strategy = none := by
    intro d hd hrefused
    cases hplan : plan? d.nodes bundles strategy with
    | none => rfl
    | some places =>
      have haccepted := refusal?_eq_none_iff.2 (hd.admissible_of_plan? hne hvalid hplan)
      rw [hrefused] at haccepted
      cases haccepted
  have hlater : ((c.run ops).run later).refusal? bundles strategy = some why :=
    (refusal?_run hsame bundles strategy).trans hrefused
  have hbalanced : Balanced ((c.run ops).run later) :=
    run_append c ops later ▸ balanced_run h (ops ++ later)
  exact ⟨hunplanned (balanced_run h ops) hrefused, hunplanned hbalanced hlater, submit_of_refused hlater⟩

/-- Two nodes of two units cannot take three units together, not even when all is released. -/
theorem refused_run_three :
    let cpus (q : Rat) : Bundle Rat := NameMap.empty.insert "CPU" q
    let c : Cluster Rat := ofNodes [Node.idle "a" (cpus 2) true, Node.idle "b" (cpus 2) false]
    let ops := [Operation.submit [cpus 1, cpus 1] .pack]
    let later := [Operation.release (.numbered 1), .setDraining "a" false, .addNode "b" (cpus 9) false]
    Built c ∧ ((c.run ops).refusal? [cpus 1, cpus 2] .strictPack).isSome ∧ (c.run ops).joined later = []
      ∧ plan? (c.run ops).nodes [cpus 1, cpus 2] .strictPack = none
      ∧ plan? ((c.run ops).run later).nodes [cpus 1, cpus 2] .strictPack = none
      ∧ (plan? ((c.run ops).run later).nodes [cpus 1, cpus 2] .pack).isSome := by
  intro cpus c ops later
  have hbuilt : Built c := .ofNodes _ (by simp [Node.idle])
  have hvalid : ∀ b ∈ [cpus 1, cpus 2], Bundle.fault? b = none := by decide +kernel
  have hrefused : ((c.run ops).refusal? [cpus 1, cpus 2] .strictPack).isSome := by decide +kernel
  have hjoined : (c.run ops).joined later = [] := List.isEmpty_iff.1 (by decide +kernel)
  obtain ⟨why, hwhy⟩ := Option.isSome_iff_exists.1 hrefused
  obtain ⟨hnow, hlater, -⟩ := refused_run hbuilt ops later (by simp) hvalid hwhy hjoined
  exact ⟨hbuilt, hrefused, hjoined, hnow, hlater, by decide +kernel⟩

end ActorPlacement.Cluster
