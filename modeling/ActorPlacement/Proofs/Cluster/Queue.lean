import ActorPlacement.Proofs.Cluster.Records

/-!
# The queue of a cluster

`Cluster.waiting` reads off the reservations which tokens wait for capacity; the cluster keeps the same
tokens in its queue. A pass over the queue takes it apart and builds it again while reservations are
placed, so during a pass the new queue and the tokens still to be tried together are those that wait
(`pending_retry`). With the records in order this is all of the bookkeeping of a cluster (`WellKept`).
-/

namespace ActorPlacement.Cluster

variable {Q : Type}

/-- The tokens of the live reservations that are not placed, oldest first. -/
def waiting (c : Cluster Q) : List Token :=
  (c.reservations.filter fun r => r.assignment.isNone).map Reservation.token

theorem mem_waiting {c : Cluster Q} {token : Token} :
    token ∈ c.waiting ↔ ∃ r ∈ c.reservations, r.token = token ∧ r.assignment = none := by
  simp only [waiting, List.mem_map, List.mem_filter, Option.isNone_iff_eq_none]
  constructor
  · rintro ⟨r, ⟨hr, hnone⟩, htoken⟩
    exact ⟨r, hr, htoken, hnone⟩
  · rintro ⟨r, hr, htoken, hnone⟩
    exact ⟨r, ⟨hr, hnone⟩, htoken⟩

theorem waiting_sublist (c : Cluster Q) :
    c.waiting.Sublist c.tokens :=
  List.filter_sublist.map _

theorem Orderly.waiting_nodup {c : Cluster Q} (h : Orderly c) : c.waiting.Nodup :=
  c.waiting_sublist.nodup h.tokens_nodup

/-- A token that waits finds a reservation that is not placed. -/
theorem Orderly.assignment_of_waiting {c : Cluster Q} (h : Orderly c) {token : Token}
    {r : Reservation Q} (hwaiting : token ∈ c.waiting) (hfind : c.find? token = some r) :
    r.assignment = none := by
  obtain ⟨s, hs, rfl, hnone⟩ := mem_waiting.1 hwaiting
  rw [h.find?_token hs] at hfind
  cases hfind
  exact hnone

/-- Leaving out a token that is not there changes nothing. -/
theorem filter_ne_of_notMem {tokens : List Token} {token : Token} (h : token ∉ tokens) :
    (tokens.filter fun t => t ≠ token) = tokens := by
  refine List.filter_eq_self.2 fun t ht => ?_
  have hne : t ≠ token := by
    rintro rfl
    exact h ht
  simpa using hne

variable [Quantity Q]

theorem waiting_drop (c : Cluster Q) (r : Reservation Q) :
    (c.drop r).waiting = c.waiting.filter fun t => t ≠ r.token := by
  simp only [waiting, drop, List.filter_map, List.filter_filter, Function.comp_def]
  congr 1
  refine List.filter_congr fun s _ => ?_
  rw [Bool.and_comm]

theorem waiting_placeAt (c : Cluster Q) (r : Reservation Q) (places : List Nat) :
    (c.placeAt r places).waiting = c.waiting.filter fun t => t ≠ r.token := by
  simp only [waiting, placeAt, markPlaced, List.filter_map, List.map_map, List.filter_filter]
  have htoken : (Reservation.token ∘ fun s : Reservation Q =>
      if s.token = r.token then { s with assignment := some places, ready := true } else s)
      = Reservation.token := by
    funext s
    simp only [Function.comp_apply]
    split <;> rfl
  rw [htoken]
  refine congrArg _ (List.filter_congr fun s _ => ?_)
  simp only [Function.comp_apply]
  by_cases h : s.token = r.token <;> simp [h]

omit [Quantity Q] in
theorem Orderly.waiting_enlist {c : Cluster Q} (h : Orderly c) (bundles : List (Bundle Q))
    (strategy : Strategy) :
    (c.enlist bundles strategy).waiting = c.waiting ++ [Token.numbered (c.issued + 1)] := by
  simp [waiting, h.reservations_enlist]

/-! ## A pass over the queue -/

/-- Trying a token keeps the rebuilt queue and the tokens still to be tried those that wait. -/
theorem pending_retry {c : Cluster Q} (h : Orderly c) (token : Token) (todo : List Token)
    (hqueue : c.pending ++ token :: todo = c.waiting) :
    (c.retry token).pending ++ todo = (c.retry token).waiting := by
  have hmem : token ∈ c.waiting := by
    rw [← hqueue]
    exact List.mem_append_right _ List.mem_cons_self
  rcases retry_cases c token with ⟨heq, -⟩ | ⟨-, r, hfind, hplaced⟩ | ⟨r, places, hfind, -, -, heq⟩
  · rw [heq, List.append_assoc]
    exact hqueue
  · rw [h.assignment_of_waiting hmem hfind] at hplaced
    cases hplaced
  · have hnodup := h.waiting_nodup
    rw [← hqueue, List.nodup_append] at hnodup
    obtain ⟨-, htail, hapart⟩ := hnodup
    have hfront : (c.pending.filter fun t => t ≠ token) = c.pending :=
      filter_ne_of_notMem fun hmem => hapart token hmem token List.mem_cons_self rfl
    have htodo : (todo.filter fun t => t ≠ token) = todo :=
      filter_ne_of_notMem (List.nodup_cons.1 htail).1
    rw [heq, waiting_placeAt, token_of_find? hfind, ← hqueue, List.filter_append, hfront,
      List.filter_cons_of_neg (by simp), htodo]
    rfl

theorem pending_foldl_retry {tokens : List Token} {c : Cluster Q} (h : Orderly c)
    (hqueue : c.pending ++ tokens = c.waiting) :
    (tokens.foldl retry c).pending = (tokens.foldl retry c).waiting := by
  induction tokens generalizing c with
  | nil => simpa using hqueue
  | cons token rest ih =>
    exact ih ((retry_moves c token).invariant Orderly.move h) (pending_retry h token rest hqueue)

theorem pending_retryPending {c : Cluster Q} (h : Orderly c) (hqueue : c.pending = c.waiting) :
    c.retryPending.pending = c.retryPending.waiting :=
  pending_foldl_retry (h.move (.queue c [])) hqueue

/-! ## The operations -/

/-- A release takes the token out of the queue if it waits there. -/
theorem queueWithout_eq_waiting {c : Cluster Q} (h : Orderly c) (hqueue : c.pending = c.waiting)
    {r : Reservation Q} (hlive : c.find? r.token = some r) :
    c.queueWithout r = (c.drop r).waiting := by
  rw [waiting_drop, queueWithout, hqueue]
  split
  · rename_i hplaced
    -- a placed reservation does not wait
    have hnot : r.token ∉ c.waiting := by
      intro hmem
      rw [h.assignment_of_waiting hmem hlive] at hplaced
      cases hplaced
    exact (filter_ne_of_notMem hnot).symm
  · rfl

/-- Every operation keeps the queue equal to the tokens that wait. -/
theorem pending_apply {c : Cluster Q} (h : Orderly c) (hqueue : c.pending = c.waiting)
    (op : Operation Q) : (c.apply op).pending = (c.apply op).waiting := by
  have heffect := effect_apply c op
  generalize c.apply op = c', c.grant? op = granted at heffect ⊢
  cases heffect with
  | taken | nobody | refuse | unknown | drain => exact hqueue
  | join id resources draining new =>
    exact pending_retryPending (h.move (.join c id resources draining new)) hqueue
  | reopen id place => exact pending_retryPending (h.move (.drain c place false)) hqueue
  | accept bundles strategy =>
    have htried := pending_retry (h.enlist bundles strategy)
      (Token.numbered (c.issued + 1)) [] (by rw [h.waiting_enlist, ← hqueue]; rfl)
    simpa using htried
  | free r live =>
    exact pending_retryPending ((h.drop r).move (.queue _ (c.queueWithout r)))
      (queueWithout_eq_waiting h hqueue live)

theorem pending_run {c : Cluster Q} (h : Built c) (ops : List (Operation Q)) :
    (c.run ops).pending = (c.run ops).waiting := by
  have hunused := h.unused
  have hstart : c.pending = c.waiting := by
    rw [hunused.pending, waiting, hunused.reservations]
    rfl
  have hboth := run_induction (P := fun c => Orderly c ∧ c.pending = c.waiting)
    (fun c op hc => ⟨(apply_moves c op).invariant Orderly.move hc.1, pending_apply hc.1 hc.2 op⟩)
    ⟨hunused.orderly, hstart⟩ ops
  exact hboth.2

/-! ## The books -/

/-- What the books of a cluster that granted some tokens say: the queue holds the reservations that wait,
each once and in the order of their submission, the flags are right, and all places are those of nodes. -/
structure WellKept (c : Cluster Q) (granted : List Token) : Prop where
  unique : c.tokens.Nodup
  queued : ∀ token, token ∈ c.pending ↔ ∃ r ∈ c.reservations, r.token = token ∧ r.assignment = none
  once : c.pending.Nodup
  ordered : granted.Nodup ∧ c.pending.Sublist granted
  ready : ∀ r ∈ c.reservations, r.ready = true ↔ r.assignment.isSome
  length : ∀ r ∈ c.reservations, ∀ places, r.assignment = some places →
    places.length = r.bundles.length
  places : ∀ r ∈ c.reservations, ∀ places, r.assignment = some places →
    ∀ place ∈ places, place < c.nodes.length
  named : ∀ r ∈ c.reservations, r.assignment.isSome → (c.assignment? r.token).isSome
  ids : (c.nodes.map Node.id).Nodup

omit [Quantity Q] in
/-- The nodes of a placed reservation can be named. -/
theorem Orderly.assignment?_isSome {c : Cluster Q} (h : Orderly c) {r : Reservation Q}
    (hr : r ∈ c.reservations) (hplaced : r.assignment.isSome) : (c.assignment? r.token).isSome := by
  obtain ⟨places, hplaces⟩ := Option.isSome_iff_exists.1 hplaced
  rw [h.assignment?_eq hr hplaces]
  rfl

/-- **After every run the books of a cluster are well kept**; the counter does not pass the number of
submissions, and a plan never leads outside the nodes that it is made for. -/
theorem wellKept_run {c : Cluster Q} (h : Built c) (ops : List (Operation Q)) :
    WellKept (c.run ops) (c.granted ops) ∧ (c.run ops).issued ≤ ops.countP Operation.isSubmit
      ∧ ∀ (nodes : List (Node Q)) (bundles : List (Bundle Q)) (strategy : Strategy) (places : List Nat),
          plan? nodes bundles strategy = some places →
            places.length = bundles.length ∧ ∀ place ∈ places, place < nodes.length := by
  have horderly := orderly_run h ops
  have hpending := pending_run h ops
  have hgranted : (c.run ops).issuedTokens = c.granted ops := by
    rw [issuedTokens_run, issuedTokens, h.unused.issued]
    rfl
  have hissued : (c.run ops).issued = (c.granted ops).length := by
    rw [← hgranted, issuedTokens, List.length_map, List.length_range']
  refine ⟨?_, hissued ▸ length_granted_le c ops, ?_⟩
  · constructor
    case unique => exact horderly.tokens_nodup
    case queued =>
      intro token
      rw [hpending]
      exact mem_waiting
    case once =>
      rw [hpending]
      exact horderly.waiting_nodup
    case ordered =>
      rw [hpending, ← hgranted]
      exact ⟨issuedTokens_nodup _, (waiting_sublist _).trans horderly.numbered⟩
    case ready =>
      intro r hr
      rw [horderly.ready r hr]
    case length => exact horderly.length
    case places => exact horderly.places
    case named => exact fun r hr => horderly.assignment?_isSome hr
    case ids => exact horderly.ids
  · intro nodes bundles strategy places hplan
    have hpermitted := plan?_permitted hplan
    refine ⟨hpermitted.length, fun place hplace => ?_⟩
    obtain ⟨n, hn, -⟩ := hpermitted.inUse place hplace
    exact (List.getElem?_eq_some_iff.1 hn).1

/-- Of two reservations for the one unit of a node the first is placed and the second waits. -/
theorem wellKept_run_two :
    let c : Cluster Rat := ofNodes [Node.idle "n" (NameMap.empty.insert "CPU" 1) false]
    let ops := List.replicate 2 (Operation.submit [NameMap.empty.insert "CPU" (1 : Rat)] .pack)
    Built c ∧ WellKept (c.run ops) (c.granted ops) ∧ (c.run ops).pending = [Token.numbered 2] := by
  intro c ops
  have hbuilt : Built c := .ofNodes _ (by simp [Node.idle])
  exact ⟨hbuilt, (wellKept_run hbuilt ops).1, by decide +kernel⟩

end ActorPlacement.Cluster
