import ActorPlacement.Proofs.Cluster.Conservation
import ActorPlacement.Proofs.Cluster.Frame

/-!
# What a release gives back

A reservation that is placed at once and then released leaves the cluster as it was, if nobody waits: the
nodes have given bundles and got the same ones back, and the counter has gone on
(`Orderly.release_of_placed`). There is as much of everything free as before (`restored_run`). What is free
on a node is the same bundle as before just if the bundles that lay there named nothing else. A bundle may
ask for nothing of a resource that the node lacks, and giving it back then leaves an entry of zero
(`widened_of_release`).
-/

namespace ActorPlacement.Cluster

section Placed

variable {Q : Type} [Quantity Q] {c : Cluster Q} {bundles : List (Bundle Q)} {strategy : Strategy}
  {token : Token} {places : List Nat}

omit [Quantity Q] in
/-- What a granted submission enlists is found under its token, not placed yet. -/
theorem Orderly.find?_enlist (h : Orderly c) (bundles : List (Bundle Q)) (strategy : Strategy) :
    (c.enlist bundles strategy).find? (.numbered (c.issued + 1))
      = some ⟨.numbered (c.issued + 1), bundles, strategy, none, false⟩ := by
  refine (h.enlist bundles strategy).find?_token (r := ⟨.numbered (c.issued + 1), _, _, _, _⟩) ?_
  rw [h.reservations_enlist]
  exact List.mem_append_right _ List.mem_cons_self

/-- A submission that is placed at once puts the reservation that it enlists on the places of a plan. -/
theorem Orderly.apply_submit_of_placed (h : Orderly c)
    (hgrant : c.grant? (.submit bundles strategy) = some token) {r : Reservation Q}
    (hlive : (c.apply (.submit bundles strategy)).find? token = some r)
    (hplaced : r.assignment = some places) :
    token = .numbered (c.issued + 1) ∧ r = ⟨token, bundles, strategy, some places, true⟩
      ∧ plan? c.nodes bundles strategy = some places
      ∧ c.apply (.submit bundles strategy)
        = (c.enlist bundles strategy).placeAt ⟨token, bundles, strategy, none, false⟩ places := by
  have hr := mem_of_find? hlive
  have htoken := token_of_find? hlive
  have henlisted := h.find?_enlist bundles strategy
  have heffect := effect_apply c (.submit bundles strategy)
  rw [hgrant] at heffect
  generalize c.apply (.submit bundles strategy) = c' at heffect hr
  cases heffect with
  | accept =>
    refine ⟨rfl, ?_⟩
    rcases retry_cases (c.enlist bundles strategy) (.numbered (c.issued + 1)) with
      ⟨htried, -⟩ | ⟨-, s, hs, halready⟩ | ⟨s, found, hs, -, hplan, htried⟩
    · -- tried in vain, it would not be placed
      rw [htried] at hr
      have hfind := (h.enlist bundles strategy).find?_token hr
      rw [htoken, henlisted] at hfind
      cases hfind
      cases hplaced
    · rw [henlisted] at hs
      cases hs
      cases halready
    · rw [henlisted] at hs
      cases hs
      rw [htried] at hr ⊢
      rcases ((h.enlist bundles strategy).mem_placeAt henlisted).1 hr with rfl | ⟨-, hne⟩
      · cases hplaced
        exact ⟨rfl, hplan, rfl⟩
      · exact absurd htoken hne

/-- To drop a reservation that was just placed leaves those that were there before it. -/
theorem Orderly.reservations_drop_placeAt (h : Orderly c) (bundles : List (Bundle Q)) (strategy : Strategy)
    (places : List Nat) {r s : Reservation Q} (hr : r.token = .numbered (c.issued + 1))
    (hs : s.token = .numbered (c.issued + 1)) :
    (((c.enlist bundles strategy).placeAt r places).drop s).reservations = c.reservations := by
  -- the placement marks only what is dropped
  have hmarked : (c.reservations.map fun t =>
      if t.token = r.token then { t with assignment := some places, ready := true } else t)
      = c.reservations := by
    refine (List.map_congr_left fun t ht => ?_).trans (List.map_id _)
    rw [if_neg (hr ▸ h.next_unused t ht), id]
  have hkept : (c.reservations.filter fun t => t.token ≠ s.token) = c.reservations := by
    refine List.filter_eq_self.2 fun t ht => ?_
    simpa [hs] using h.next_unused t ht
  show ((((c.enlist bundles strategy).reservations).map _).filter _) = c.reservations
  rw [h.reservations_enlist, List.map_append, hmarked, List.filter_append, hkept]
  simp [hr, hs]

/-- A pass over an empty queue changes nothing. -/
theorem retryPending_of_pending_eq_nil (h : c.pending = []) : c.retryPending = c := by
  rw [retryPending, h, List.foldl_nil, ← h]

/-- Where nobody waits, a release places nobody. -/
theorem release_of_pending_eq_nil {r : Reservation Q} (hlive : c.find? r.token = some r)
    (hqueue : c.pending = []) : c.release r.token = { c.drop r with pending := [] } := by
  have hnobody : c.queueWithout r = [] := by simp [queueWithout, hqueue]
  rw [release_of_live hlive, hnobody]
  exact retryPending_of_pending_eq_nil rfl

/-- If nobody waits, a reservation that is placed at once and released again leaves the same reservations,
nobody waiting, and nodes that got back what they had given. -/
theorem Orderly.release_of_placed (h : Orderly c) (hqueue : c.pending = [])
    (hgrant : c.grant? (.submit bundles strategy) = some token) {r : Reservation Q}
    (hlive : (c.apply (.submit bundles strategy)).find? token = some r)
    (hplaced : r.assignment = some places) :
    (c.apply (.submit bundles strategy)).apply (.release token)
      = { nodes := giveAll (takeAll c.nodes (bundles.zip places)) (bundles.zip places)
          reservations := c.reservations
          pending := []
          issued := c.issued + 1 } := by
  obtain ⟨rfl, rfl, -, heq⟩ := h.apply_submit_of_placed hgrant hlive hplaced
  have hempty : (c.apply (.submit bundles strategy)).pending = [] := by
    rw [heq]
    exact hqueue
  have hkept := h.reservations_drop_placeAt bundles strategy places
    (r := ⟨.numbered (c.issued + 1), bundles, strategy, none, false⟩)
    (s := ⟨.numbered (c.issued + 1), bundles, strategy, some places, true⟩) rfl rfl
  rw [← hkept]
  refine (release_of_pending_eq_nil
    (r := ⟨.numbered (c.issued + 1), bundles, strategy, some places, true⟩) hlive hempty).trans ?_
  rw [heq]
  rfl

end Placed

/-- **A release gives back what the placement took.** If nobody waits, a reservation that is placed at once
and then released leaves the live reservations, the empty queue and the nodes as they were, and as much of
everything free on each node. The free bundle has entries for what it named before and for what the bundles
that lay there named, so it is the same bundle exactly when these named nothing else. -/
theorem restored_run {c : Cluster Rat} (h : Built c) (ops : List (Operation Rat))
    {bundles : List (Bundle Rat)} {strategy : Strategy} {token : Token} {r : Reservation Rat}
    {places : List Nat} (hqueue : (c.run ops).pending = [])
    (hgrant : (c.run ops).grant? (.submit bundles strategy) = some token)
    (hlive : ((c.run ops).apply (.submit bundles strategy)).find? token = some r)
    (hplaced : r.assignment = some places) :
    let before := c.run ops
    let after := (before.apply (.submit bundles strategy)).apply (.release token)
    after.reservations = before.reservations
      ∧ after.pending = []
      ∧ after.nodes.length = before.nodes.length
      ∧ ∀ (place : Nat) (n : Node Rat), before.nodes[place]? = some n →
          ∃ free, after.nodes[place]? = some { n with free }
            ∧ (∀ name, Bundle.amount free name = Bundle.amount n.free name)
            ∧ (∀ name, Bundle.Names free name ↔ Bundle.Names n.free name
                ∨ ∃ b ∈ bundlesOn (bundles.zip places) place, Bundle.Names b name)
            ∧ (free = n.free ↔ ∀ b ∈ bundlesOn (bundles.zip places) place, ∀ name,
                Bundle.Names b name → Bundle.Names n.free name) := by
  intro before after
  have horderly : Orderly before := orderly_run h ops
  obtain ⟨-, -, hplan, -⟩ := horderly.apply_submit_of_placed hgrant hlive hplaced
  have hafter := horderly.release_of_placed hqueue hgrant hlive hplaced
  have hvalid : ∀ b ∈ bundles, Bundle.fault? b = none :=
    (refusal?_eq_none_iff.1 (refusal?_of_grant? hgrant)).valid
  simp only [after, hafter]
  refine ⟨trivial, trivial, ?_, fun place n hn => ?_⟩
  · have hids : (giveAll (takeAll before.nodes (bundles.zip places)) (bundles.zip places)).map Node.id
        = before.nodes.map Node.id :=
      (map_foldl_changeFree Node.id (fun _ _ => rfl) Bundle.add _ _).trans
        (map_foldl_changeFree Node.id (fun _ _ => rfl) Bundle.subtract _ _)
    simpa using congrArg List.length hids
  · have hparts : ∀ b ∈ bundlesOn (bundles.zip places) place, Bundle.fault? b = none :=
      fun b hb => hvalid b (mem_of_mem_bundlesOn hb)
    have hcovers := plan?_covers hplan hvalid hn
    refine ⟨_, by rw [getElem?_giveAll, getElem?_takeAll, hn]; rfl, ?_, ?_, ?_⟩
    · exact Bundle.amount_givenBack hparts hcovers
    · exact Bundle.names_givenBack _ _
    · exact Bundle.givenBack_eq_iff hparts hcovers

/-- One reservation is live on the first of two nodes. Two bundles are then placed apart, the first of them
takes all that is left there, and their release leaves the node the same. -/
theorem restored_run_apart :
    let cpus (q : Rat) : Bundle Rat := NameMap.empty.insert "CPU" q
    let c : Cluster Rat :=
      ofNodes [Node.idle "a" ((cpus 4).insert "GPU" 1) false, Node.idle "b" (cpus 2) false]
    let before := c.run [Operation.submit [cpus 3] .pack]
    let bundles := [(cpus 1).insert "GPU" 1, cpus 2]
    let during := before.apply (.submit bundles .pack)
    before.pending = [] ∧ before.grant? (.submit bundles .pack) = some (Token.numbered 2)
      ∧ ∃ r, during.find? (Token.numbered 2) = some r ∧ r.assignment = some [0, 1]
        ∧ ∃ n, before.nodes[0]? = some n ∧ n.free = (cpus 1).insert "GPU" 1
          ∧ (during.apply (.release (Token.numbered 2))).nodes[0]? = some n := by
  intro cpus c before bundles during
  have hbuilt : Built c := .ofNodes _ (by simp [Node.idle])
  have hqueue : before.pending = [] := by decide +kernel
  have hgrant : before.grant? (.submit bundles .pack) = some (Token.numbered 2) := by decide +kernel
  have hassigned : (during.find? (Token.numbered 2)).bind Reservation.assignment = some [0, 1] := by
    decide +kernel
  have hleft : before.nodes[0]?.map Node.free = some ((cpus 1).insert "GPU" 1) := by decide +kernel
  obtain ⟨r, hlive, hplaced⟩ := Option.bind_eq_some_iff.1 hassigned
  obtain ⟨n, hn, hfree⟩ := Option.map_eq_some_iff.1 hleft
  obtain ⟨-, -, -, hnodes⟩ := restored_run hbuilt _ hqueue hgrant hlive hplaced
  obtain ⟨free, hafter, -, -, hsame⟩ := hnodes 0 n hn
  have hknown : free = n.free := by
    refine hsame.2 fun b hb name hname => ?_
    rwa [hfree, ← List.mem_singleton.1 (show b ∈ [(cpus 1).insert "GPU" 1] from hb)]
  rw [hknown] at hafter
  exact ⟨hqueue, hgrant, r, hlive, hplaced, n, hn, hfree, hafter⟩

/-- A node without the resource covers a bundle that asks for nothing of it. When the bundle is given back,
the node has an entry of zero for the resource, and its free bundle is not the one that it was. -/
theorem widened_of_release :
    let cpu : Bundle Rat := NameMap.empty.insert "CPU" 1
    let c : Cluster Rat := ofNodes [Node.idle "a" cpu false]
    let demand := cpu.insert "GPU" 0
    let after := (c.apply (.submit [demand] .pack)).apply (.release (Token.numbered 1))
    Built c ∧ c.pending = []
      ∧ c.grant? (.submit [demand] .pack) = some (Token.numbered 1)
      ∧ ((c.apply (.submit [demand] .pack)).find? (Token.numbered 1)).bind Reservation.assignment = some [0]
      ∧ c.nodes.map Node.free = [cpu] ∧ after.nodes.map Node.free = [demand] ∧ demand ≠ cpu := by
  intro cpu c demand after
  refine ⟨.ofNodes _ (by simp [Node.idle]), ?_, ?_, ?_, ?_, ?_, ?_⟩ <;> decide +kernel

end ActorPlacement.Cluster
