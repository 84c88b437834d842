import ActorPlacement.Proofs.Cluster.Tokens
import ActorPlacement.Proofs.Planning.Soundness

/-!
# The records of a cluster

`Orderly` says how nodes and reservations fit together: every live reservation has a token of its own,
older ones the lower numbers, its flag tells whether it is placed, its places are those of nodes, and no
two nodes share an id. The queue is not part of it, so every move keeps it (`Orderly.move`). Nodes stay
where they are (`Move.map_nodes`), so a place always has the same name.
-/

namespace ActorPlacement.Cluster

variable {Q : Type}

/-! ## Clusters that were just built -/

/-- A cluster of distinct nodes on which nobody has reserved anything. -/
structure Unused (c : Cluster Q) : Prop where
  reservations : c.reservations = []
  pending : c.pending = []
  issued : c.issued = 0
  ids : (c.nodes.map Node.id).Nodup
  idle : ∀ n ∈ c.nodes, n.free = n.capacity

theorem hasNode_eq_false {c : Cluster Q} {id : String} :
    c.hasNode id = false ↔ id ∉ c.nodes.map Node.id := by
  simp only [hasNode, List.any_eq_false, List.mem_map, not_exists, not_and, beq_iff_eq]

theorem ids_nodup_append {c : Cluster Q} (h : (c.nodes.map Node.id).Nodup) {node : Node Q}
    (hnew : c.hasNode node.id = false) : ((c.nodes ++ [node]).map Node.id).Nodup := by
  rw [List.map_append, List.map_singleton]
  refine List.nodup_append.2 ⟨h, List.nodup_singleton _, ?_⟩
  intro id hid other hother heq
  rw [heq, List.mem_singleton.1 hother] at hid
  exact hasNode_eq_false.1 hnew hid

theorem Unused.join {c : Cluster Q} (h : Unused c) {node : Node Q} (hidle : node.free = node.capacity) :
    Unused (c.join node).1 := by
  cases hnew : c.hasNode node.id with
  | true => simpa [Cluster.join, hnew] using h
  | false =>
    simp only [Cluster.join, hnew]
    refine ⟨h.reservations, h.pending, h.issued, ids_nodup_append h.ids hnew, ?_⟩
    intro n hn
    rcases List.mem_append.1 hn with hn | hn
    · exact h.idle n hn
    · rw [List.mem_singleton.1 hn, hidle]

theorem unused_ofNodes {nodes : List (Node Q)} (hidle : ∀ n ∈ nodes, n.free = n.capacity) :
    Unused (ofNodes nodes) := by
  have hfold : ∀ {nodes : List (Node Q)}, (∀ n ∈ nodes, n.free = n.capacity) → ∀ {c : Cluster Q},
      Unused c → Unused (nodes.foldl (fun c node => (c.join node).1) c) := by
    intro nodes hidle
    induction nodes with
    | nil => exact fun h => h
    | cons node rest ih =>
      intro c h
      exact ih (fun n hn => hidle n (List.mem_cons_of_mem _ hn))
        (h.join (hidle node List.mem_cons_self))
  exact hfold hidle ⟨rfl, rfl, rfl, List.nodup_nil, fun n hn => by cases hn⟩

/-! ## Records in order -/

/-- The tokens of the live reservations, oldest first. -/
def tokens (c : Cluster Q) : List Token := c.reservations.map Reservation.token

/-- Nodes and reservations fit together. -/
structure Orderly (c : Cluster Q) : Prop where
  numbered : c.tokens.Sublist c.issuedTokens
  ready : ∀ r ∈ c.reservations, r.ready = r.assignment.isSome
  length : ∀ r ∈ c.reservations, ∀ places, r.assignment = some places →
    places.length = r.bundles.length
  places : ∀ r ∈ c.reservations, ∀ places, r.assignment = some places →
    ∀ place ∈ places, place < c.nodes.length
  ids : (c.nodes.map Node.id).Nodup

theorem Unused.orderly {c : Cluster Q} (h : Unused c) : Orderly c where
  numbered := by rw [tokens, h.reservations]; exact List.nil_sublist _
  ready := by simp [h.reservations]
  length := by simp [h.reservations]
  places := by simp [h.reservations]
  ids := h.ids

theorem Orderly.tokens_nodup {c : Cluster Q} (h : Orderly c) :
    c.tokens.Nodup :=
  h.numbered.nodup c.issuedTokens_nodup

/-- A live reservation is the one that its token finds. -/
theorem Orderly.find?_token {c : Cluster Q} (h : Orderly c) {r : Reservation Q}
    (hr : r ∈ c.reservations) : c.find? r.token = some r := by
  cases hfind : c.find? r.token with
  | none =>
    have hnone := List.find?_eq_none.1 hfind r hr
    simp at hnone
  | some s =>
    have hs := List.inj_on_of_nodup_map h.tokens_nodup (mem_of_find? hfind) hr (token_of_find? hfind)
    rw [hs]

theorem Orderly.next_unused {c : Cluster Q} (h : Orderly c) :
    ∀ r ∈ c.reservations, r.token ≠ Token.numbered (c.issued + 1) := by
  intro r hr heq
  have hmem := h.numbered.subset (List.mem_map_of_mem hr)
  rw [heq] at hmem
  exact c.numbered_notMem_issuedTokens (Nat.lt_succ_self _) hmem

section Moves

variable [Quantity Q]

theorem Built.unused {c : Cluster Q} (h : Built c) : Unused c := by
  cases h with
  | empty => exact ⟨rfl, rfl, rfl, List.nodup_nil, fun n hn => by cases hn⟩
  | ofNodes nodes idle => exact unused_ofNodes idle
  | ofSection declared =>
    simp only [Cluster.ofSection] at declared
    split at declared
    · cases declared
    · cases declared
      refine unused_ofNodes fun n hn => ?_
      obtain ⟨declaration, -, rfl⟩ := List.mem_map.1 hn
      rfl

/-- What a request needs to be accepted: bundles without fault, a node that has enough for each of them,
one that has enough for all if they must lie together, and as many nodes as bundles if they must lie
apart. What is free does not matter. -/
structure Admissible (c : Cluster Q) (bundles : List (Bundle Q)) (strategy : Strategy) : Prop where
  nonempty : bundles ≠ []
  valid : ∀ b ∈ bundles, Bundle.fault? b = none
  fits : ∀ b ∈ bundles, ∃ n ∈ c.nodes, Bundle.covers n.capacity b = true
  together : strategy = .strictPack →
    ∃ n ∈ c.nodes, Bundle.covers n.capacity (Bundle.total bundles) = true
  apart : strategy = .strictSpread → bundles.length ≤ c.nodes.length

/-- A request is refused exactly when it is not admissible. -/
theorem refusal?_eq_none_iff {c : Cluster Q} {bundles : List (Bundle Q)} {strategy : Strategy} :
    c.refusal? bundles strategy = none ↔ c.Admissible bundles strategy := by
  by_cases hempty : bundles = []
  · subst hempty
    refine iff_of_false (fun h => ?_) fun h => h.nonempty rfl
    simp [refusal?] at h
  simp only [refusal?, List.isEmpty_iff, hempty, if_false, Option.orElse_eq_orElse, Option.orElse_eq_or,
    Option.or_eq_none_iff]
  rw [findSome?_zipIdx_eq_none_iff
    (P := fun b => Bundle.fault? b = none ∧ ∃ n ∈ c.nodes, Bundle.covers n.capacity b = true)
    (fun b i => by cases Bundle.fault? b <;> simp)]
  constructor
  · rintro ⟨hbundles, hstrategy⟩
    refine ⟨hempty, fun b hb => (hbundles b hb).1, fun b hb => (hbundles b hb).2, ?_, ?_⟩
    · rintro rfl
      simpa using hstrategy
    · rintro rfl
      simpa using hstrategy
  · intro h
    refine ⟨fun b hb => ⟨h.valid b hb, h.fits b hb⟩, ?_⟩
    cases strategy with
    | strictPack => simpa using h.together rfl
    | strictSpread => simpa using h.apart rfl
    | pack | spread => rfl

/-! ## What the moves change -/

theorem map_nodes_placeAt {α : Type} (field : Node Q → α)
    (hfield : ∀ n free, field { n with free } = field n) (c : Cluster Q) (r : Reservation Q)
    (places : List Nat) : (c.placeAt r places).nodes.map field = c.nodes.map field :=
  map_foldl_changeFree field hfield Bundle.subtract _ _

theorem map_nodes_drop {α : Type} (field : Node Q → α)
    (hfield : ∀ n free, field { n with free } = field n) (c : Cluster Q) (r : Reservation Q) :
    (c.drop r).nodes.map field = c.nodes.map field := by
  simp only [drop]
  cases r.assignment with
  | none => rfl
  | some places => exact map_foldl_changeFree field hfield Bundle.add _ _

omit [Quantity Q] in
theorem map_nodes_drain {α : Type} (field : Node Q → α)
    (hfield : ∀ n draining, field { n with draining } = field n) (nodes : List (Node Q)) (place : Nat)
    (draining : Bool) :
    (nodes.modify place fun n => { n with draining }).map field = nodes.map field := by
  refine List.ext_getElem? fun i => ?_
  rw [List.getElem?_map, List.getElem?_map, List.getElem?_modify]
  by_cases hi : place = i <;> cases nodes[i]? <;> simp [hi, hfield]

theorem length_nodes_placeAt (c : Cluster Q) (r : Reservation Q) (places : List Nat) :
    (c.placeAt r places).nodes.length = c.nodes.length := by
  have h := congrArg List.length (map_nodes_placeAt Node.id (fun _ _ => rfl) c r places)
  simpa using h

theorem length_nodes_drop (c : Cluster Q) (r : Reservation Q) :
    (c.drop r).nodes.length = c.nodes.length := by
  have h := congrArg List.length (map_nodes_drop Node.id (fun _ _ => rfl) c r)
  simpa using h

theorem mem_reservations_drop {c : Cluster Q} {r s : Reservation Q} :
    s ∈ (c.drop r).reservations ↔ s ∈ c.reservations ∧ s.token ≠ r.token := by
  simp [drop]

theorem tokens_placeAt (c : Cluster Q) (r : Reservation Q) (places : List Nat) :
    (c.placeAt r places).tokens = c.tokens := by
  simp only [tokens, placeAt, markPlaced, List.map_map]
  refine List.map_congr_left fun s _ => ?_
  simp only [Function.comp_apply]
  split <;> rfl

theorem tokens_drop (c : Cluster Q) (r : Reservation Q) :
    (c.drop r).tokens = c.tokens.filter fun t => t ≠ r.token := by
  simp only [tokens, drop, List.filter_map]
  rfl

/-! ## The invariant -/

omit [Quantity Q] in
/-- A new reservation replaces none. -/
theorem Orderly.reservations_enlist {c : Cluster Q} (h : Orderly c) (bundles : List (Bundle Q))
    (strategy : Strategy) :
    (c.enlist bundles strategy).reservations = c.reservations
      ++ [⟨Token.numbered (c.issued + 1), bundles, strategy, none, false⟩] := by
  have hkept : (c.reservations.filter fun r => r.token ≠ Token.numbered (c.issued + 1))
      = c.reservations := by
    refine List.filter_eq_self.2 fun r hr => ?_
    simpa using h.next_unused r hr
  simp only [enlist, hkept]

omit [Quantity Q] in
theorem Orderly.tokens_enlist {c : Cluster Q} (h : Orderly c) (bundles : List (Bundle Q))
    (strategy : Strategy) :
    (c.enlist bundles strategy).tokens = c.tokens ++ [Token.numbered (c.issued + 1)] := by
  rw [tokens, h.reservations_enlist, List.map_append]
  rfl

omit [Quantity Q] in
theorem Orderly.enlist {c : Cluster Q} (h : Orderly c) (bundles : List (Bundle Q))
    (strategy : Strategy) : Orderly (c.enlist bundles strategy) := by
  have hissued : (c.enlist bundles strategy).issuedTokens = c.issuedTokens ++ [_] :=
    issuedTokens_of_issued_succ rfl
  have hmem : ∀ r ∈ (c.enlist bundles strategy).reservations, r ∈ c.reservations
      ∨ r = ⟨Token.numbered (c.issued + 1), bundles, strategy, none, false⟩ := by
    intro r hr
    rw [h.reservations_enlist] at hr
    exact (List.mem_append.1 hr).imp id List.mem_singleton.1
  constructor
  case numbered =>
    rw [hissued, h.tokens_enlist]
    exact h.numbered.append (List.Sublist.refl _)
  case ready =>
    intro r hr
    rcases hmem r hr with hr | rfl
    · exact h.ready r hr
    · rfl
  case length =>
    intro r hr
    rcases hmem r hr with hr | rfl
    · exact h.length r hr
    · intro places hplaces
      cases hplaces
  case places =>
    intro r hr
    rcases hmem r hr with hr | rfl
    · exact h.places r hr
    · intro places hplaces
      cases hplaces
  case ids => exact h.ids

/-- A live reservation and those that remain without it are all that there are. -/
theorem Orderly.perm_drop {c : Cluster Q} (h : Orderly c) {r : Reservation Q}
    (hlive : c.find? r.token = some r) : c.reservations.Perm (r :: (c.drop r).reservations) := by
  obtain ⟨before, after, hsplit⟩ := List.append_of_mem (mem_of_find? hlive)
  have hnodup := h.tokens_nodup
  rw [tokens, hsplit, List.map_append, List.map_cons, List.nodup_middle, List.nodup_cons] at hnodup
  have hrest : (before ++ after).filter (fun s => s.token ≠ r.token) = before ++ after := by
    refine List.filter_eq_self.2 fun s hs => ?_
    have hne : s.token ≠ r.token := by
      intro heq
      refine hnodup.1 ?_
      rw [← heq, ← List.map_append]
      exact List.mem_map_of_mem hs
    simpa using hne
  have hdrop : (c.drop r).reservations = before ++ after := by
    rw [← hrest]
    simp [drop, hsplit]
  rw [hdrop, hsplit]
  exact List.perm_middle

/-- A placement changes only the placed reservation. -/
theorem Orderly.perm_placeAt {c : Cluster Q} (h : Orderly c) {r : Reservation Q}
    (hlive : c.find? r.token = some r) (places : List Nat) :
    (c.placeAt r places).reservations.Perm
      ({ r with assignment := some places, ready := true } :: (c.drop r).reservations) := by
  have hperm := (h.perm_drop hlive).map fun s : Reservation Q =>
    if s.token = r.token then { s with assignment := some places, ready := true } else s
  have hrest : ((c.drop r).reservations.map fun s : Reservation Q =>
      if s.token = r.token then { s with assignment := some places, ready := true } else s)
      = (c.drop r).reservations := by
    refine (List.map_congr_left fun s hs => ?_).trans (List.map_id _)
    rw [if_neg (mem_reservations_drop.1 hs).2, id]
  rw [List.map_cons, hrest, if_pos rfl] at hperm
  exact hperm

theorem Orderly.mem_placeAt {c : Cluster Q} (h : Orderly c) {r s : Reservation Q} {places : List Nat}
    (hlive : c.find? r.token = some r) :
    s ∈ (c.placeAt r places).reservations
      ↔ s = { r with assignment := some places, ready := true }
        ∨ (s ∈ c.reservations ∧ s.token ≠ r.token) := by
  rw [(h.perm_placeAt hlive places).mem_iff, List.mem_cons, mem_reservations_drop]

theorem Orderly.placeAt {c : Cluster Q} (h : Orderly c) {r : Reservation Q} {places : List Nat}
    (hlive : c.find? r.token = some r) (hplan : plan? c.nodes r.bundles r.strategy = some places) :
    Orderly (c.placeAt r places) := by
  have hpermitted := plan?_permitted hplan
  have hmem : ∀ s ∈ (c.placeAt r places).reservations,
      s = { r with assignment := some places, ready := true } ∨ s ∈ c.reservations :=
    fun s hs => ((h.mem_placeAt hlive).1 hs).imp id And.left
  constructor
  case numbered => rw [tokens_placeAt]; exact h.numbered
  case ready =>
    intro s hs
    rcases hmem s hs with rfl | hs
    · rfl
    · exact h.ready s hs
  case length =>
    intro s hs
    rcases hmem s hs with rfl | hs
    · intro _ heq
      cases heq
      exact hpermitted.length
    · exact h.length s hs
  case places =>
    intro s hs
    rw [length_nodes_placeAt]
    rcases hmem s hs with rfl | hs
    · intro _ heq
      cases heq
      intro place hplace
      obtain ⟨n, hn, -⟩ := hpermitted.inUse place hplace
      exact (List.getElem?_eq_some_iff.1 hn).1
    · exact h.places s hs
  case ids => rw [map_nodes_placeAt Node.id fun _ _ => rfl]; exact h.ids

theorem Orderly.drop {c : Cluster Q} (h : Orderly c) (r : Reservation Q) : Orderly (c.drop r) where
  numbered := (List.filter_sublist.map _).trans h.numbered
  ready s hs := h.ready s (mem_reservations_drop.1 hs).1
  length s hs := h.length s (mem_reservations_drop.1 hs).1
  places s hs := by
    rw [length_nodes_drop]
    exact h.places s (mem_reservations_drop.1 hs).1
  ids := by rw [map_nodes_drop Node.id fun _ _ => rfl]; exact h.ids

/-- Every move keeps the records in order. -/
theorem Orderly.move {c c' : Cluster Q} (hmove : Move c c') (h : Orderly c) : Orderly c' := by
  cases hmove with
  | queue pending => exact ⟨h.numbered, h.ready, h.length, h.places, h.ids⟩
  | join id resources draining new =>
    refine ⟨h.numbered, h.ready, h.length, ?_, ids_nodup_append h.ids new⟩
    intro r hr places hplaces place hplace
    rw [List.length_append]
    exact Nat.lt_add_right 1 (h.places r hr places hplaces place hplace)
  | drain place draining =>
    refine ⟨h.numbered, h.ready, h.length, by rw [List.length_modify]; exact h.places, ?_⟩
    rw [map_nodes_drain Node.id fun _ _ => rfl]
    exact h.ids
  | enlist bundles strategy accepted => exact h.enlist bundles strategy
  | place r places live waiting planned => exact h.placeAt live planned
  | drop r live => exact h.drop r

theorem orderly_run {c : Cluster Q} (h : Built c) (ops : List (Operation Q)) : Orderly (c.run ops) :=
  run_invariant Orderly.move h.unused.orderly ops

/-! ## The nodes that stay -/

/-- A move leaves every node what it is, apart from what is free on it and whether it drains. -/
theorem Move.map_nodes {α : Type} (field : Node Q → α)
    (hfree : ∀ n free, field { n with free } = field n)
    (hdraining : ∀ n draining, field { n with draining } = field n) {c c' : Cluster Q}
    (hmove : Move c c') : ∃ added, c'.nodes.map field = c.nodes.map field ++ added := by
  cases hmove with
  | queue | enlist => exact ⟨[], (List.append_nil _).symm⟩
  | join id resources draining => exact ⟨[_], List.map_append⟩
  | drain place draining =>
    exact ⟨[], (map_nodes_drain field hdraining c.nodes place draining).trans (List.append_nil _).symm⟩
  | place r places =>
    exact ⟨[], (map_nodes_placeAt field hfree c r places).trans (List.append_nil _).symm⟩
  | drop r => exact ⟨[], (map_nodes_drop field hfree c r).trans (List.append_nil _).symm⟩

end Moves

/-! ## Places and names -/

/-- The id of the node in some place. -/
def nameAt (c : Cluster Q) (place : Nat) : String := (c.nodes[place]?).elim "" Node.id

theorem nameAt_eq_getD (c : Cluster Q) (place : Nat) :
    c.nameAt place = ((c.nodes.map Node.id)[place]?).getD "" := by
  rw [nameAt, List.getElem?_map]
  cases c.nodes[place]? <;> rfl

theorem mapM_ids {c : Cluster Q} {places : List Nat} (hvalid : ∀ place ∈ places, place < c.nodes.length) :
    (places.mapM fun place => (c.nodes[place]?).map Node.id) = some (places.map c.nameAt) := by
  induction places with
  | nil => rfl
  | cons place rest ih =>
    have hfirst : (c.nodes[place]?).map Node.id = some (c.nameAt place) := by
      rw [nameAt, List.getElem?_eq_getElem (hvalid place List.mem_cons_self)]
      rfl
    rw [List.mapM_cons, hfirst, ih fun p hp => hvalid p (List.mem_cons_of_mem _ hp)]
    rfl

/-- The nodes of a placed reservation are those in its places. -/
theorem Orderly.assignment?_eq {c : Cluster Q} (h : Orderly c) {r : Reservation Q}
    (hr : r ∈ c.reservations) {places : List Nat} (hplaces : r.assignment = some places) :
    c.assignment? r.token = some (places.map c.nameAt) := by
  simp only [assignment?, h.find?_token hr, hplaces, Option.bind_some]
  exact mapM_ids (h.places r hr places hplaces)

/-- Two places have different names. -/
theorem Orderly.nameAt_inj {c : Cluster Q} (h : Orderly c) {p q : Nat} (hp : p < c.nodes.length)
    (hq : q < c.nodes.length) (heq : c.nameAt p = c.nameAt q) : p = q := by
  have hp' : p < (c.nodes.map Node.id).length := by rwa [List.length_map]
  have hq' : q < (c.nodes.map Node.id).length := by rwa [List.length_map]
  rw [nameAt_eq_getD, nameAt_eq_getD, List.getElem?_eq_getElem hp', List.getElem?_eq_getElem hq'] at heq
  exact (List.Nodup.getElem_inj_iff h.ids).1 heq

end ActorPlacement.Cluster
