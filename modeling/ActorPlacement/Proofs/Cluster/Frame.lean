import ActorPlacement.Proofs.Cluster.Queue

/-!
# What an operation leaves alone

Operations add the token that they grant to the live ones and take away the token that they release, and
no other (`untouched_apply`). A reservation whose token is not released stays the same request, and once
placed it stays in its places (`keeps_run`), whatever else is placed meanwhile. Who submits and releases
changes nothing of a node but what is free on it (`map_nodes_request`). The nodes of a run are those
before it and those that join (`map_nodes_run`).
-/

namespace ActorPlacement

/-- The token that an operation releases, if it is a release. -/
def Operation.released? {Q : Type} : Operation Q → Option Token
  | release token => some token
  | _ => none

/-- Whether clients ask for such an operation. -/
def Operation.isRequest {Q : Type} : Operation Q → Bool
  | submit _ _ | release _ => true
  | addNode _ _ _ | setDraining _ _ => false

/-- What a reservation has become: the same request, in the same places if it had any. -/
structure Reservation.Becomes {Q : Type} (r s : Reservation Q) : Prop where
  token : s.token = r.token
  bundles : s.bundles = r.bundles
  strategy : s.strategy = r.strategy
  placed : r.assignment.isSome → s.assignment = r.assignment

theorem Reservation.Becomes.refl {Q : Type} (r : Reservation Q) : r.Becomes r :=
  ⟨rfl, rfl, rfl, fun _ => rfl⟩

theorem Reservation.Becomes.trans {Q : Type} {r s t : Reservation Q} (hrs : r.Becomes s)
    (hst : s.Becomes t) : r.Becomes t where
  token := hst.token.trans hrs.token
  bundles := hst.bundles.trans hrs.bundles
  strategy := hst.strategy.trans hrs.strategy
  placed hr := by
    have hs := hrs.placed hr
    rw [hst.placed (by rw [hs, hr]), hs]

namespace Cluster

variable {Q : Type}

/-- The reservation of a token, if it is live, stays what it is. -/
def Keeps (token : Token) (c c' : Cluster Q) : Prop :=
  ∀ r ∈ c.reservations, r.token = token → ∃ s ∈ c'.reservations, r.Becomes s

/-- The reservation of a token stays what it is, and stays absent if it is. -/
structure Untouched (token : Token) (c c' : Cluster Q) : Prop where
  kept : Keeps token c c'
  absent : token ∈ c'.tokens → token ∈ c.tokens

theorem keeps_of_reservations_eq {token : Token} {c c' : Cluster Q}
    (h : c'.reservations = c.reservations) : Keeps token c c' := by
  intro r hr _
  exact ⟨r, h ▸ hr, .refl r⟩

theorem Keeps.trans {token : Token} {c c' c'' : Cluster Q} (h : Keeps token c c')
    (h' : Keeps token c' c'') : Keeps token c c'' := by
  intro r hr htoken
  obtain ⟨s, hs, hrs⟩ := h r hr htoken
  obtain ⟨t, ht, hst⟩ := h' s hs (hrs.token.trans htoken)
  exact ⟨t, ht, hrs.trans hst⟩

variable [Quantity Q] {c : Cluster Q} {token : Token}

/-! ## The moves -/

theorem Orderly.keeps_placeAt (h : Orderly c) {r : Reservation Q} {places : List Nat}
    (hlive : c.find? r.token = some r) (hwaiting : r.assignment = none) :
    Keeps token c (c.placeAt r places) := by
  intro s hs _
  by_cases htoken : s.token = r.token
  · have hfind := h.find?_token hs
    rw [htoken, hlive] at hfind
    cases hfind
    refine ⟨_, (h.mem_placeAt hlive).2 (.inl rfl), rfl, rfl, rfl, fun hplaced => ?_⟩
    rw [hwaiting] at hplaced
    cases hplaced
  · exact ⟨s, (h.mem_placeAt hlive).2 (.inr ⟨hs, htoken⟩), .refl s⟩

omit [Quantity Q] in
theorem Orderly.keeps_enlist (h : Orderly c) (bundles : List (Bundle Q)) (strategy : Strategy) :
    Keeps token c (c.enlist bundles strategy) := by
  intro r hr _
  refine ⟨r, ?_, .refl r⟩
  rw [h.reservations_enlist]
  exact List.mem_append_left _ hr

theorem keeps_drop {r : Reservation Q} (hne : token ≠ r.token) : Keeps token c (c.drop r) := by
  intro s hs htoken
  exact ⟨s, mem_reservations_drop.2 ⟨hs, htoken ▸ hne⟩, .refl s⟩

/-! ## Trying to place -/

theorem Orderly.keeps_retry (h : Orderly c) (tried : Token) : Keeps token c (c.retry tried) := by
  rcases retry_cases c tried with ⟨heq, -⟩ | ⟨heq, -⟩ | ⟨r, places, hfind, hwaiting, -, heq⟩ <;> rw [heq]
  · exact keeps_of_reservations_eq rfl
  · exact keeps_of_reservations_eq rfl
  · exact h.keeps_placeAt (by rw [token_of_find? hfind, hfind]) hwaiting

theorem tokens_retry (c : Cluster Q) (tried : Token) : (c.retry tried).tokens = c.tokens := by
  rcases retry_cases c tried with ⟨heq, -⟩ | ⟨heq, -⟩ | ⟨r, places, -, -, -, heq⟩ <;> rw [heq]
  · rfl
  · exact tokens_placeAt c r places

theorem Orderly.keeps_retryPending (h : Orderly c) : Keeps token c c.retryPending := by
  have hboth : Orderly c.retryPending ∧ Keeps token c c.retryPending := by
    refine retryPending_induction (P := fun d => Orderly d ∧ Keeps token c d) ?_
      ⟨h.move (.queue c []), keeps_of_reservations_eq rfl⟩
    rintro d tried ⟨hd, hkept⟩
    exact ⟨(retry_moves d tried).invariant Orderly.move hd, hkept.trans (hd.keeps_retry tried)⟩
  exact hboth.2

theorem tokens_retryPending (c : Cluster Q) : c.retryPending.tokens = c.tokens :=
  retryPending_induction (P := fun d => d.tokens = c.tokens)
    (fun d tried hd => (tokens_retry d tried).trans hd) rfl

/-! ## The operations -/

/-- The live tokens after an operation: a granted one is added and a released one is removed. -/
theorem Orderly.tokens_apply (h : Orderly c) (op : Operation Q) :
    (c.apply op).tokens
      = (c.tokens.filter fun t => op.released? ≠ some t) ++ (c.grant? op).toList := by
  have hsame : ∀ {op : Operation Q}, op.released? = none →
      (c.tokens.filter fun t => op.released? ≠ some t) = c.tokens := by
    intro op hnone
    refine List.filter_eq_self.2 fun t _ => ?_
    simp [hnone]
  have heffect := effect_apply c op
  generalize c.apply op = c', c.grant? op = granted at heffect ⊢
  cases heffect with
  | taken | nobody | refuse => rw [hsame rfl, Option.toList_none, List.append_nil]
  | drain =>
    rw [hsame rfl, Option.toList_none, List.append_nil]
    rfl
  | join | reopen =>
    rw [hsame rfl, Option.toList_none, List.append_nil, tokens_retryPending]
    rfl
  | accept bundles strategy =>
    rw [hsame rfl, tokens_retry, h.tokens_enlist]
    rfl
  | unknown token absent =>
    rw [Option.toList_none, List.append_nil]
    refine (List.filter_eq_self.2 fun t ht => ?_).symm
    obtain ⟨r, hr, rfl⟩ := List.mem_map.1 ht
    have hne : token ≠ r.token := by
      rintro rfl
      rw [h.find?_token hr] at absent
      cases absent
    simpa [Operation.released?] using hne
  | free r live =>
    rw [Option.toList_none, List.append_nil, tokens_retryPending]
    show (c.drop r).tokens = _
    rw [tokens_drop]
    refine List.filter_congr fun t _ => ?_
    simp [Operation.released?, eq_comm]

theorem Orderly.keeps_apply (h : Orderly c) {op : Operation Q} (hrelease : op.released? ≠ some token) :
    Keeps token c (c.apply op) := by
  have heffect := effect_apply c op
  generalize c.apply op = c', c.grant? op = granted at heffect ⊢
  cases heffect with
  | taken | nobody | refuse | unknown | drain => exact keeps_of_reservations_eq rfl
  | join id resources draining new =>
    exact (h.move (.join c id resources draining new)).keeps_retryPending
  | reopen id place => exact (h.move (.drain c place false)).keeps_retryPending
  | accept bundles strategy =>
    exact (h.keeps_enlist bundles strategy).trans ((h.enlist bundles strategy).keeps_retry _)
  | free r =>
    have hne : token ≠ r.token := by
      rintro rfl
      exact hrelease rfl
    exact (keeps_drop hne).trans ((h.drop r).move (.queue _ (c.queueWithout r))).keeps_retryPending

theorem Orderly.apply (h : Orderly c) (op : Operation Q) : Orderly (c.apply op) :=
  (apply_moves c op).invariant Orderly.move h

/-- A reservation stays what it is in a run that does not release it. -/
theorem Orderly.keeps_run (h : Orderly c) {ops : List (Operation Q)}
    (hkept : ∀ op ∈ ops, op.released? ≠ some token) : Keeps token c (c.run ops) := by
  induction ops generalizing c with
  | nil => exact keeps_of_reservations_eq rfl
  | cons op rest ih =>
    exact (h.keeps_apply (hkept op List.mem_cons_self)).trans
      (ih (h.apply op) fun op hop => hkept op (List.mem_cons_of_mem _ hop))

theorem map_nodes_retry {α : Type} (field : Node Q → α)
    (hfree : ∀ n free, field { n with free } = field n) (c : Cluster Q) (tried : Token) :
    (c.retry tried).nodes.map field = c.nodes.map field := by
  rcases retry_cases c tried with ⟨heq, -⟩ | ⟨heq, -⟩ | ⟨r, places, -, -, -, heq⟩ <;> rw [heq]
  exact map_nodes_placeAt field hfree c r places

theorem map_nodes_retryPending {α : Type} (field : Node Q → α)
    (hfree : ∀ n free, field { n with free } = field n) (c : Cluster Q) :
    c.retryPending.nodes.map field = c.nodes.map field :=
  retryPending_induction (P := fun d => d.nodes.map field = c.nodes.map field)
    (fun d tried hd => (map_nodes_retry field hfree d tried).trans hd) rfl

/-- What a client asks for changes only what is free on the nodes. -/
theorem map_nodes_request {α : Type} (field : Node Q → α)
    (hfree : ∀ n free, field { n with free } = field n) (c : Cluster Q) (op : Operation Q)
    (hop : op.isRequest = true) : (c.apply op).nodes.map field = c.nodes.map field := by
  have heffect := effect_apply c op
  generalize c.apply op = c', c.grant? op = granted at heffect
  cases heffect with
  | taken | join | nobody | drain | reopen => cases hop
  | refuse | unknown => rfl
  | accept bundles strategy => exact map_nodes_retry field hfree _ _
  | free r => exact (map_nodes_retryPending field hfree _).trans (map_nodes_drop field hfree c r)

/-- An operation leaves every node what it is, apart from what is free on it and whether it drains, and
may add one. -/
theorem map_nodes_apply {α : Type} (field : Node Q → α)
    (hfree : ∀ n free, field { n with free } = field n)
    (hdraining : ∀ n draining, field { n with draining } = field n) (c : Cluster Q) (op : Operation Q) :
    (c.apply op).nodes.map field = c.nodes.map field ++ (c.joins? op).toList.map field := by
  have heffect := effect_apply c op
  generalize c.apply op = c', c.grant? op = granted at heffect
  cases heffect with
  | taken id resources draining known =>
    have hadd : c.addNode (Node.idle id resources draining) = (c, false) := addNode_of_taken known
    simp [joins?, hadd]
  | join id resources draining new =>
    have hadd : (c.addNode (Node.idle id resources draining)).2 = true := by rw [addNode_of_new new]
    rw [map_nodes_retryPending field hfree, List.map_append]
    simp [joins?, hadd]
  | nobody | refuse | unknown => simp [joins?]
  | drain id place => simpa [joins?] using map_nodes_drain field hdraining c.nodes place true
  | reopen id place =>
    rw [map_nodes_retryPending field hfree]
    simpa [joins?] using map_nodes_drain field hdraining c.nodes place false
  | accept bundles strategy =>
    rw [map_nodes_retry field hfree]
    simp [joins?, enlist]
  | free r =>
    rw [map_nodes_retryPending field hfree]
    simpa [joins?] using map_nodes_drop field hfree c r

/-- The nodes after a run are those before it and those that joined. -/
theorem map_nodes_run {α : Type} (field : Node Q → α)
    (hfree : ∀ n free, field { n with free } = field n)
    (hdraining : ∀ n draining, field { n with draining } = field n) (c : Cluster Q)
    (ops : List (Operation Q)) :
    (c.run ops).nodes.map field = c.nodes.map field ++ (c.joined ops).map field := by
  induction ops generalizing c with
  | nil => simp [joined]
  | cons op rest ih =>
    rw [run_cons, ih, map_nodes_apply field hfree hdraining, joined, List.map_append, List.append_assoc]

/-- **An operation touches only the reservations that it grants or releases a token for.** -/
theorem Orderly.untouched_apply (h : Orderly c) (op : Operation Q)
    (hrelease : op.released? ≠ some token) (hgrant : c.grant? op ≠ some token) :
    Untouched token c (c.apply op) := by
  refine ⟨h.keeps_apply hrelease, fun hmem => ?_⟩
  rw [h.tokens_apply, List.mem_append] at hmem
  rcases hmem with hmem | hmem
  · exact (List.mem_filter.1 hmem).1
  · exact absurd (Option.mem_toList.1 hmem) hgrant

theorem issued_apply {op : Operation Q} (h : token ∈ c.issuedTokens) :
    token ∈ (c.apply op).issuedTokens := by
  rw [issuedTokens_apply]
  exact List.mem_append_left _ h

/-- A granted token was never issued before. -/
theorem granted_new {op : Operation Q} (h : c.grant? op = some token) :
    token ∉ c.issuedTokens ∧ token ∈ (c.apply op).issuedTokens := by
  have hissued := issuedTokens_apply c op
  rw [h] at hissued
  have hnodup := (c.apply op).issuedTokens_nodup
  rw [hissued, Option.toList_some, List.nodup_append] at hnodup
  refine ⟨fun hmem => ?_, ?_⟩
  · exact hnodup.2.2 token hmem token List.mem_cons_self rfl
  · rw [hissued]
    exact List.mem_append_right _ List.mem_cons_self

/-- The reservation of a granted token is the one that was submitted. -/
theorem Orderly.submitted (h : Orderly c) {bundles : List (Bundle Q)} {strategy : Strategy}
    (hgrant : c.grant? (.submit bundles strategy) = some token) :
    ∃ r ∈ (c.apply (.submit bundles strategy)).reservations,
      r.token = token ∧ r.bundles = bundles ∧ r.strategy = strategy := by
  cases hrefusal : c.refusal? bundles strategy with
  | some why =>
    rw [grant?, submit_of_refused hrefusal] at hgrant
    cases hgrant
  | none =>
    rw [grant?, submit_of_accepted hrefusal] at hgrant
    cases hgrant
    simp only [Cluster.apply, submit_of_accepted hrefusal]
    obtain ⟨s, hs, hbecomes⟩ := (h.enlist bundles strategy).keeps_retry (.numbered (c.issued + 1))
      ⟨.numbered (c.issued + 1), bundles, strategy, none, false⟩
      (by rw [h.reservations_enlist]; exact List.mem_append_right _ List.mem_cons_self) rfl
    exact ⟨s, hs, hbecomes.token, hbecomes.bundles, hbecomes.strategy⟩

end Cluster

end ActorPlacement
