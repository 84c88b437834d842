import ActorPlacement.Proofs.Planning.Soundness

/-!
# Best effort and strictness

`pack` and `spread` are `strictPack` and `strictSpread` with something to fall back to. `pack` falls back
only when no node can take all bundles (`plan?_pack`), and `spread` falls back for one bundle at a time,
only when no unused node can take it. So a strict plan is also the plan of the strategy that is less
strict, and `strictSpread` finds one exactly when the plan of `spread` uses no node twice
(`plan?_strictSpread_eq_some_iff`). Quantities may be of any kind.
-/

namespace ActorPlacement

variable {Q : Type} [Quantity Q] {nodes : List (Node Q)} {used : List Bool} {bundles : List (Bundle Q)}
  {places : List Nat}

/-! ## One node for all -/

theorem plan?_strictPack_isSome_iff : (plan? nodes bundles .strictPack).isSome
    ↔ ∃ n ∈ nodes, n.draining = false ∧ Bundle.covers n.free (Bundle.total bundles) = true := by
  have htogether : (plan? nodes bundles .strictPack).isSome
      ↔ ∃ place, CanTake nodes place (Bundle.total bundles) := Plan.together?_isSome_iff
  rw [htogether]
  constructor
  · rintro ⟨place, n, hn, hin, hcovers⟩
    exact ⟨n, List.mem_of_getElem? hn, hin, hcovers⟩
  · rintro ⟨n, hn, hin, hcovers⟩
    obtain ⟨place, hplace⟩ := List.getElem?_of_mem hn
    exact ⟨place, n, hplace, hin, hcovers⟩

/-! ## A node for each -/

/-- The choices of `strictSpread` are those of `spread` while these are new: the induction goes along the
bundles, and both runs see the same board as long as they agree. -/
theorem Plan.each?_strictSpread_eq_some_iff :
    each? .strictSpread (Board.on nodes used) bundles = some places
      ↔ each? .spread (Board.on nodes used) bundles = some places
        ∧ places.Nodup ∧ ∀ place ∈ places, used[place]? = some false := by
  constructor
  · intro h
    refine ⟨?_, each?_strictSpread h⟩
    induction bundles generalizing nodes used places with
    | nil => exact h
    | cons b rest ih =>
      obtain ⟨place, later, hplace, hlater, rfl⟩ := (each?_cons_eq_some b).1 h
      have hchoice := (Board.choose?_strictSpread_eq_some_iff.1 hplace).1
      exact (each?_cons_eq_some b).2 ⟨place, later, hchoice, ih hlater, rfl⟩
  · rintro ⟨h, hnodup, hunused⟩
    induction bundles generalizing nodes used places with
    | nil => exact h
    | cons b rest ih =>
      obtain ⟨place, later, hplace, hlater, rfl⟩ := (each?_cons_eq_some b).1 h
      obtain ⟨hnew, hnodup⟩ := List.nodup_cons.1 hnodup
      have hchoice := Board.choose?_strictSpread_eq_some_iff.2 ⟨hplace, hunused place List.mem_cons_self⟩
      have hothers : ∀ p ∈ later, (used.set place true)[p]? = some false := by
        intro p hp
        have hne : place ≠ p := by
          rintro rfl
          exact hnew hp
        exact getElem?_set_used.2 ⟨hne, hunused p (List.mem_cons_of_mem _ hp)⟩
      exact (each?_cons_eq_some b).2 ⟨place, later, hchoice, ih hlater hnodup hothers, rfl⟩

theorem plan?_strictSpread_eq_some_iff : plan? nodes bundles .strictSpread = some places
    ↔ plan? nodes bundles .spread = some places ∧ places.Nodup := by
  have heach : plan? nodes bundles .strictSpread = some places
      ↔ plan? nodes bundles .spread = some places ∧ places.Nodup
        ∧ ∀ place ∈ places, (nodes.map fun _ => false)[place]? = some false :=
    Plan.each?_strictSpread_eq_some_iff
  rw [heach]
  refine and_congr_right fun h => and_iff_left fun place hplace => ?_
  obtain ⟨n, hn, -⟩ := (plan?_permitted h).inUse place hplace
  exact getElem?_unused hn

/-- **Best-effort strategies agree with the strict ones whenever those succeed.** `strictPack` finds a plan
exactly when some node in use covers the total of the bundles, and `pack` then finds the same. What
`strictSpread` finds is what `spread` finds, and it finds it exactly when no node is used twice. -/
theorem plan?_strict_agrees (nodes : List (Node Q)) (bundles : List (Bundle Q)) :
    ((plan? nodes bundles .strictPack).isSome ↔
        ∃ n ∈ nodes, n.draining = false ∧ Bundle.covers n.free (Bundle.total bundles) = true)
      ∧ (∀ places, plan? nodes bundles .strictPack = some places →
          plan? nodes bundles .pack = some places)
      ∧ ∀ places, plan? nodes bundles .strictSpread = some places ↔
          plan? nodes bundles .spread = some places ∧ places.Nodup := by
  refine ⟨plan?_strictPack_isSome_iff, fun places h => ?_, fun places => plan?_strictSpread_eq_some_iff⟩
  rw [plan?_pack, h, Option.some_or]

-- Two nodes are enough for two bundles, and only `spread` goes on to a third.
example :
    let cpus (n : Rat) : Bundle Rat := NameMap.empty.insert "CPU" n
    let nodes := [Node.idle "a" (cpus 2) false, Node.idle "b" (cpus 1) false]
    (∀ strategy ∈ [Strategy.strictSpread, .spread], plan? nodes [cpus 1, cpus 1] strategy = some [0, 1])
      ∧ plan? nodes [cpus 1, cpus 1, cpus 1] .strictSpread = none
      ∧ plan? nodes [cpus 1, cpus 1, cpus 1] .spread = some [0, 1, 0] := by
  decide +kernel

end ActorPlacement
