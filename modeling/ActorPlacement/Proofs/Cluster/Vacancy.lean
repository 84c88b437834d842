import ActorPlacement.Proofs.Cluster.Frame
import ActorPlacement.Proofs.Cluster.Passes
import ActorPlacement.Proofs.Planning.Whole

/-!
# Who waits fits nowhere

Nobody looks at the queue while bundles are only given out and nodes only start to drain: what fits
nowhere then goes on fitting nowhere. Everything else that happens ends with a pass over the queue, and a
pass puts a token back only when it has just been tried in vain. So a request that goes to one node never
stays pending while a node in use has room for it (`noVacancy_run`).
-/

namespace ActorPlacement.Cluster

/-- Whoever is in the queue and has to go to one node fits on none in use. -/
def NoVacancy (c : Cluster Rat) : Prop :=
  ∀ r ∈ c.reservations, r.token ∈ c.pending → GoesWhole r.strategy r.bundles →
    ∀ place, ¬CanTake c.nodes place (Bundle.total r.bundles)

variable {c c' : Cluster Rat} {token : Token} {todo : List Token}

theorem noVacancy_of_pending_eq_nil (h : c.pending = []) : NoVacancy c := by
  intro r _ hpending
  rw [h] at hpending
  cases hpending

/-- Who fitted nowhere goes on fitting nowhere while nodes only have less. -/
theorem NoVacancy.shrinks (h : NoVacancy c) (hnodes : Shrinks c.nodes c'.nodes)
    (hbefore : ∀ s ∈ c'.reservations, s.token ∈ c'.pending →
      ∃ r ∈ c.reservations, r.Becomes s ∧ r.token ∈ c.pending) : NoVacancy c' := by
  intro s hs hpending hwhole place hcan
  obtain ⟨r, hr, hbecomes, hpending⟩ := hbefore s hs hpending
  rw [hbecomes.bundles, hbecomes.strategy] at hwhole
  rw [hbecomes.bundles] at hcan
  exact h r hr hpending hwhole place (hnodes.canTake hcan)

/-- Trying a token puts it into the queue only if it fits nowhere, and takes from the nodes otherwise. -/
theorem NoVacancy.retry (h : NoVacancy c) (hpassing : Passing c (token :: todo)) :
    NoVacancy (c.retry token) := by
  have horderly := hpassing.orderly
  rcases retry_cases c token with ⟨heq, hwhy⟩ | ⟨heq, -⟩ | ⟨r, places, hfind, hwaiting, hplan, heq⟩ <;>
    rw [heq]
  · intro r hr hpending hwhole place hcan
    rcases List.mem_append.1 hpending with hpending | htried
    · exact h r hr hpending hwhole place hcan
    · -- the token was just tried in vain
      have hfind := horderly.find?_token hr
      rw [List.mem_singleton.1 htried] at hfind
      rcases hwhy with hnone | ⟨s, hs, -, hplan⟩
      · rw [hfind] at hnone
        cases hnone
      · rw [hfind] at hs
        cases hs
        have hsome := plan?_isSome_of_canTake hwhole (hpassing.balanced.valid r hr) hcan
        rw [hplan] at hsome
        cases hsome
  · exact h
  · have hlive : c.find? r.token = some r := by rw [token_of_find? hfind, hfind]
    have hvalid := hpassing.balanced.valid r (mem_of_find? hfind)
    refine h.shrinks (shrinks_takeAll hvalid hplan) fun s hs hpending => ?_
    rcases (horderly.mem_placeAt hlive).1 hs with rfl | ⟨hs, -⟩
    · refine ⟨r, mem_of_find? hfind, ⟨rfl, rfl, rfl, fun hplaced => ?_⟩, hpending⟩
      rw [hwaiting] at hplaced
      cases hplaced
    · exact ⟨s, hs, .refl s, hpending⟩

theorem noVacancy_kept : KeptByPasses NoVacancy where
  join _ _ _ _ _ _ := noVacancy_of_pending_eq_nil rfl
  reopen _ _ _ := noVacancy_of_pending_eq_nil rfl
  drop _ _ _ _ := noVacancy_of_pending_eq_nil rfl
  drain _ h place := h.shrinks (shrinks_drain _ place) fun s hs hpending => ⟨s, hs, .refl s, hpending⟩
  enlist {c} hc h bundles strategy _ := by
    intro r hr hpending
    rw [hc.orderly.reservations_enlist] at hr
    rcases List.mem_append.1 hr with hr | hr
    · exact h r hr hpending
    · -- the new token is not in the queue yet
      obtain ⟨s, hs, htoken, -⟩ := mem_waiting.1 (hc.pending_eq ▸ hpending)
      rw [List.mem_singleton.1 hr] at htoken
      exact absurd htoken (hc.orderly.next_unused s hs)
  retry hc h := h.retry hc

/-- **No missed wake-up.** In every state of a run each token in the queue is that of a live reservation
that is not placed, and if such a reservation has to go to one node, no node in use covers its total. -/
theorem noVacancy_run (h : Built c) (ops : List (Operation Rat)) :
    (∀ token ∈ (c.run ops).pending, ∃ r ∈ (c.run ops).reservations,
        r.token = token ∧ r.assignment = none)
      ∧ ∀ r ∈ (c.run ops).reservations, r.assignment = none → GoesWhole r.strategy r.bundles →
          ∀ n ∈ (c.run ops).nodes, n.draining = false →
            Bundle.covers n.free (Bundle.total r.bundles) = false := by
  have hpending := pending_run h ops
  refine ⟨fun token htoken => mem_waiting.1 (hpending ▸ htoken), ?_⟩
  intro r hr hwaiting hwhole n hn hin
  have hnone := noVacancy_kept.run h (noVacancy_of_pending_eq_nil h.unused.pending) ops r hr
    (hpending ▸ mem_waiting.2 ⟨r, hr, rfl, hwaiting⟩) hwhole
  obtain ⟨place, hplace⟩ := List.getElem?_of_mem hn
  exact Bool.eq_false_iff.2 fun hcovers => hnone place ⟨n, hplace, hin, hcovers⟩

/-- One unit of two is given back, and whoever needs both goes on waiting for the other. -/
theorem noVacancy_run_pair :
    let cpus (q : Rat) : Bundle Rat := NameMap.empty.insert "CPU" q
    let c : Cluster Rat := ofNodes [Node.idle "n" (cpus 2) false]
    let ops := [Operation.submit [cpus 1] .spread, .submit [cpus 1] .pack,
      .submit [cpus 1, cpus 1] .strictPack, .release (.numbered 1)]
    Built c ∧ (c.run ops).pending = [.numbered 3]
      ∧ ∃ r ∈ (c.run ops).reservations, r.token = .numbered 3 ∧ GoesWhole r.strategy r.bundles
        ∧ ∀ n ∈ (c.run ops).nodes, n.draining = false →
          Bundle.covers n.free (Bundle.total r.bundles) = false := by
  intro cpus c ops
  have hbuilt : Built c := .ofNodes _ (by simp [Node.idle])
  obtain ⟨hqueue, hnone⟩ := noVacancy_run hbuilt ops
  have hpending : (c.run ops).pending = [.numbered 3] := by decide +kernel
  obtain ⟨r, hr, htoken, hwaiting⟩ := hqueue (.numbered 3) (by rw [hpending]; exact List.mem_cons_self)
  have hwhole : ∀ r ∈ (c.run ops).reservations, r.token = .numbered 3 → r.strategy = .strictPack := by
    decide +kernel
  have hstrict : GoesWhole r.strategy r.bundles := .inl (hwhole r hr htoken)
  exact ⟨hbuilt, hpending, r, hr, htoken, hstrict, hnone r hr hwaiting hstrict⟩

end ActorPlacement.Cluster
