import ActorPlacement.Proofs.Cluster.Frame

/-!
# Where reservations are placed

Whatever places a reservation, it places it as its strategy demands (`Arranged`), on nodes that are in use
at that moment. A pass over the queue may place many reservations, but takes no node into use or out of it
(`Fills`), so the nodes of a new placement are in use when the operation is done. They were before, but for
one that the operation itself took into use (`exists_fills`). A placed reservation stays where it is until
it is released.
-/

namespace ActorPlacement

variable {Q : Type}

/-- The id that an operation takes into use: of a node that joins for use or does not drain any more. -/
def Operation.opened? : Operation Q → Option String
  | addNode id _ false => some id
  | setDraining id false => some id
  | _ => none

/-- The node in some place may be given bundles. -/
def InUse (nodes : List (Node Q)) (place : Nat) : Prop :=
  ∃ n, nodes[place]? = some n ∧ n.draining = false

namespace Cluster

/-- Whether the bundles of a reservation lie as its strategy demands: by their places, and by the ids that
are answered when somebody asks for its nodes. -/
structure Arranged (c : Cluster Q) (r : Reservation Q) : Prop where
  places : ∀ places, r.assignment = some places →
    places.length = r.bundles.length ∧ r.strategy.Allows places
  ids : ∀ ids, c.assignment? r.token = some ids → ids.length = r.bundles.length
    ∧ (r.strategy = .strictPack → ∀ a ∈ ids, ∀ b ∈ ids, a = b)
    ∧ (r.strategy = .strictSpread → ids.Nodup)

/-- Every placed reservation lies as its strategy demands. -/
def Lawful (c : Cluster Q) : Prop :=
  ∀ r ∈ c.reservations, ∀ places, r.assignment = some places → r.strategy.Allows places

/-- The ids of the nodes, and which of them drain. -/
def labels (c : Cluster Q) : List (String × Bool) := c.nodes.map fun n => (n.id, n.draining)

/-- Reservations were placed on nodes in use, and nothing else happened to the nodes. -/
structure Fills (c c' : Cluster Q) : Prop where
  labels : c'.labels = c.labels
  placed : ∀ s ∈ c'.reservations, ∀ places, s.assignment = some places →
    (∃ r ∈ c.reservations, r.token = s.token ∧ r.assignment = some places)
      ∨ ∀ place ∈ places, InUse c.nodes place

/-! ## Names -/

/-- What a strategy demands of the places of a reservation holds of the names of its nodes. -/
theorem Orderly.arranged {c : Cluster Q} (h : Orderly c) (hlawful : Lawful c) {r : Reservation Q}
    (hr : r ∈ c.reservations) : Arranged c r := by
  refine ⟨fun places hplaces => ⟨h.length r hr places hplaces, hlawful r hr places hplaces⟩, ?_⟩
  intro ids hids
  cases hplaces : r.assignment with
  | none => simp [assignment?, h.find?_token hr, hplaces] at hids
  | some places =>
    rw [h.assignment?_eq hr hplaces] at hids
    cases hids
    have hallowed := hlawful r hr places hplaces
    refine ⟨(List.length_map _).trans (h.length r hr places hplaces), fun hpack => ?_, fun hspread => ?_⟩
    · rw [hpack] at hallowed
      intro a ha b hb
      obtain ⟨p, hp, rfl⟩ := List.mem_map.1 ha
      obtain ⟨q, hq, rfl⟩ := List.mem_map.1 hb
      rw [hallowed p hp q hq]
    · rw [hspread] at hallowed
      have hvalid := h.places r hr places hplaces
      exact List.Nodup.map_on (fun p hp q hq => h.nameAt_inj (hvalid p hp) (hvalid q hq)) hallowed

/-! ## Strategies -/

section Lawful

variable [Quantity Q] {c c' : Cluster Q}

theorem Lawful.placeAt (h : Lawful c) (horderly : Orderly c) {r : Reservation Q} {places : List Nat}
    (hlive : c.find? r.token = some r) (hplan : plan? c.nodes r.bundles r.strategy = some places) :
    Lawful (c.placeAt r places) := by
  intro s hs
  rcases (horderly.mem_placeAt hlive).1 hs with rfl | ⟨hs, -⟩
  · intro _ heq
    cases heq
    exact (plan?_permitted hplan).allowed
  · exact h s hs

theorem Lawful.move (hmove : Move c c') (horderly : Orderly c) (h : Lawful c) : Lawful c' := by
  cases hmove with
  | queue | join | drain => exact h
  | enlist bundles strategy =>
    intro r hr
    rw [horderly.reservations_enlist] at hr
    rcases List.mem_append.1 hr with hr | hr
    · exact h r hr
    · intro places hplaces
      rw [List.mem_singleton.1 hr] at hplaces
      cases hplaces
  | place r places live waiting planned => exact h.placeAt horderly live planned
  | drop r => exact fun s hs => h s (mem_reservations_drop.1 hs).1

theorem lawful_run (h : Built c) (ops : List (Operation Q)) : Lawful (c.run ops) := by
  have hstart : Lawful c := by
    intro r hr
    rw [h.unused.reservations] at hr
    cases hr
  have hboth := run_invariant (P := fun c => Orderly c ∧ Lawful c)
    (fun hmove hc => ⟨hc.1.move hmove, hc.2.move hmove hc.1⟩) ⟨h.unused.orderly, hstart⟩ ops
  exact hboth.2

end Lawful

/-! ## Nodes in use -/

theorem inUse_iff {c : Cluster Q} {place : Nat} :
    InUse c.nodes place ↔ ∃ id, c.labels[place]? = some (id, false) := by
  simp only [InUse, labels, List.getElem?_map, Option.map_eq_some_iff]
  constructor
  · rintro ⟨n, hn, hin⟩
    exact ⟨n.id, n, hn, by rw [hin]⟩
  · rintro ⟨id, n, hn, heq⟩
    exact ⟨n, hn, congrArg Prod.snd heq⟩

theorem Fills.refl (c : Cluster Q) : Fills c c :=
  ⟨rfl, fun s hs _ hplaces => .inl ⟨s, hs, rfl, hplaces⟩⟩

theorem Fills.trans {c c' c'' : Cluster Q} (h : Fills c c') (h' : Fills c' c'') : Fills c c'' where
  labels := h'.labels.trans h.labels
  placed t ht places hplaces := by
    rcases h'.placed t ht places hplaces with ⟨s, hs, htoken, hplaces⟩ | hinUse
    · rcases h.placed s hs places hplaces with ⟨r, hr, hr', hplaces⟩ | hinUse
      · exact .inl ⟨r, hr, hr'.trans htoken, hplaces⟩
      · exact .inr hinUse
    · refine .inr fun place hplace => ?_
      have hplace := inUse_iff.1 (hinUse place hplace)
      rw [h.labels] at hplace
      exact inUse_iff.2 hplace

variable [Quantity Q] {c : Cluster Q}

theorem Orderly.fills_retry (h : Orderly c) (token : Token) : Fills c (c.retry token) := by
  rcases retry_cases c token with ⟨heq, -⟩ | ⟨heq, -⟩ | ⟨r, places, hfind, -, hplan, heq⟩ <;> rw [heq]
  · exact ⟨rfl, (Fills.refl c).placed⟩
  · exact .refl c
  · have hlive : c.find? r.token = some r := by rw [token_of_find? hfind, hfind]
    refine ⟨map_nodes_placeAt _ (fun _ _ => rfl) c r places, fun s hs _ hplaces => ?_⟩
    rcases (h.mem_placeAt hlive).1 hs with rfl | ⟨hs, -⟩
    · cases hplaces
      exact .inr (plan?_permitted hplan).inUse
    · exact .inl ⟨s, hs, rfl, hplaces⟩

theorem Orderly.fills_retryPending (h : Orderly c) : Fills c c.retryPending := by
  have hboth : Orderly c.retryPending ∧ Fills c c.retryPending := by
    refine retryPending_induction (P := fun d => Orderly d ∧ Fills c d) ?_
      ⟨h.move (.queue c []), rfl, (Fills.refl c).placed⟩
    rintro d token ⟨hd, hfills⟩
    exact ⟨(retry_moves d token).invariant Orderly.move hd, hfills.trans (hd.fills_retry token)⟩
  exact hboth.2

/-- Every operation does something to nodes or reservations that places nobody, and then places some. -/
theorem Orderly.exists_fills (h : Orderly c) (op : Operation Q) :
    ∃ d : Cluster Q, Fills d (c.apply op) ∧ (∀ r ∈ d.reservations, r ∈ c.reservations ∨ r.assignment = none)
      ∧ ∀ (place : Nat) (id : String), d.labels[place]? = some (id, false) →
          c.labels[place]? = some (id, false) ∨ op.opened? = some id := by
  have heffect := effect_apply c op
  generalize c.apply op = c', c.grant? op = granted at heffect ⊢
  cases heffect with
  | taken | nobody | refuse | unknown =>
    exact ⟨c, .refl c, fun r hr => .inl hr, fun place id hplace => .inl hplace⟩
  | join id resources draining new =>
    refine ⟨_, (h.move (.join c id resources draining new)).fills_retryPending, fun r hr => .inl hr, ?_⟩
    intro place id' hplace
    rw [labels, List.map_append, List.getElem?_append] at hplace
    split at hplace
    · exact .inl hplace
    · obtain ⟨rfl, rfl⟩ := Prod.mk.inj (List.mem_singleton.1 (List.mem_of_getElem? hplace))
      exact .inr rfl
  | drain id at_ found =>
    refine ⟨_, .refl _, fun r hr => .inl hr, fun place id' hplace => .inl ?_⟩
    rw [labels, List.getElem?_map, List.getElem?_modify] at hplace
    rw [labels, List.getElem?_map]
    by_cases hsame : at_ = place
    · cases hn : c.nodes[place]? <;> simp [hn, hsame] at hplace
    · simpa [hsame] using hplace
  | reopen id at_ found =>
    refine ⟨_, (h.move (.drain c at_ false)).fills_retryPending, fun r hr => .inl hr, ?_⟩
    intro place id' hplace
    rw [labels, List.getElem?_map, List.getElem?_modify] at hplace
    rw [labels, List.getElem?_map]
    by_cases hsame : at_ = place
    · subst hsame
      obtain ⟨hat, hid, -⟩ := List.findIdx?_eq_some_iff_getElem.1 found
      have hname : c.nodes[at_].id = id' := by simpa [List.getElem?_eq_getElem hat] using hplace
      rw [← hname, eq_of_beq hid]
      exact .inr rfl
    · exact .inl (by simpa [hsame] using hplace)
  | accept bundles strategy accepted =>
    refine ⟨_, (h.enlist bundles strategy).fills_retry _, fun r hr => ?_, fun _ _ hplace => .inl hplace⟩
    rw [h.reservations_enlist] at hr
    rcases List.mem_append.1 hr with hr | hr
    · exact .inl hr
    · rw [List.mem_singleton.1 hr]
      exact .inr rfl
  | free r live =>
    refine ⟨_, ((h.drop r).move (.queue _ (c.queueWithout r))).fills_retryPending,
      fun s hs => .inl (mem_reservations_drop.1 hs).1, fun place id hplace => .inl ?_⟩
    have hsame : labels { c.drop r with pending := c.queueWithout r } = c.labels :=
      map_nodes_drop _ (fun _ _ => rfl) c r
    rw [← hsame]
    exact hplace

/-- A place is called what it was called before. -/
theorem nameAt_run (ops : List (Operation Q)) {place : Nat} (hplace : place < c.nodes.length) :
    (c.run ops).nameAt place = c.nameAt place := by
  rw [nameAt_eq_getD, nameAt_eq_getD, map_nodes_run Node.id (fun _ _ => rfl) (fun _ _ => rfl) c ops,
    List.getElem?_append_left]
  rwa [List.length_map]

/-- **Strategies and draining nodes are respected.** In every state of a run all placed reservations lie as
their strategies demand. Whatever operation comes next, the nodes of those that it places are in use when
it is done, and were before unless it opened them; and who is placed keeps its nodes until it is
released. -/
theorem arranged_run (h : Built c) (ops : List (Operation Q)) :
    (∀ r ∈ (c.run ops).reservations, Arranged (c.run ops) r)
      ∧ (∀ op, ∀ s ∈ ((c.run ops).apply op).reservations, ∀ places, s.assignment = some places →
          (∀ r, (c.run ops).find? s.token = some r → r.assignment = none) →
          ∀ place ∈ places, ∃ n, ((c.run ops).apply op).nodes[place]? = some n ∧ n.draining = false
            ∧ (InUse (c.run ops).nodes place ∨ op.opened? = some n.id))
      ∧ ∀ r ∈ (c.run ops).reservations, ∀ places, r.assignment = some places →
          ∀ later, (∀ op ∈ later, Operation.released? op ≠ some r.token) →
            ∃ s, ((c.run ops).run later).find? r.token = some s ∧ s.assignment = some places
              ∧ ((c.run ops).run later).assignment? r.token = (c.run ops).assignment? r.token := by
  have horderly := orderly_run h ops
  refine ⟨fun r hr => horderly.arranged (lawful_run h ops) hr, ?_, ?_⟩
  · intro op s hs places hplaces hnew place hplace
    obtain ⟨d, hfills, hbefore, hopened⟩ := horderly.exists_fills op
    rcases hfills.placed s hs places hplaces with ⟨r, hr, htoken, hplaced⟩ | hinUse
    · -- who was placed already is not newly placed
      rcases hbefore r hr with hr | hnone
      · rw [hnew r (htoken ▸ horderly.find?_token hr)] at hplaced
        cases hplaced
      · rw [hnone] at hplaced
        cases hplaced
    · obtain ⟨id, hid⟩ := inUse_iff.1 (hinUse place hplace)
      have hafter := hid
      rw [← hfills.labels, labels, List.getElem?_map] at hafter
      obtain ⟨n, hn, heq⟩ := Option.map_eq_some_iff.1 hafter
      obtain ⟨rfl, hin⟩ := Prod.mk.inj heq
      exact ⟨n, hn, hin, (hopened place n.id hid).imp_left fun h => inUse_iff.2 ⟨n.id, h⟩⟩
  · intro r hr places hplaces later hkept
    have hlater : Orderly ((c.run ops).run later) := run_append c ops later ▸ orderly_run h (ops ++ later)
    obtain ⟨s, hs, hbecomes⟩ := horderly.keeps_run hkept r hr rfl
    have hplaced := (hbecomes.placed (by rw [hplaces]; rfl)).trans hplaces
    refine ⟨s, hbecomes.token ▸ hlater.find?_token hs, hplaced, ?_⟩
    rw [horderly.assignment?_eq hr hplaces, ← hbecomes.token, hlater.assignment?_eq hs hplaced]
    refine congrArg some (List.map_congr_left fun place hplace => ?_)
    exact nameAt_run later (horderly.places r hr places hplaces place hplace)

/-- Two bundles wait until the second node is taken into use, and stay on both when the nodes drain. -/
theorem arranged_run_reopened :
    let cpu : Bundle Rat := NameMap.empty.insert "CPU" 1
    let c : Cluster Rat := ofNodes [Node.idle "a" cpu true, Node.idle "b" cpu false]
    let ops := [Operation.submit [cpu, cpu] .strictSpread, .setDraining "a" false]
    Built c ∧ (c.run (ops.take 1)).assignment? (.numbered 1) = none
      ∧ (∀ r ∈ (c.run ops).reservations, Arranged (c.run ops) r)
      ∧ ((c.run ops).run [.setDraining "a" true, .setDraining "b" true]).assignment? (.numbered 1)
          = some ["a", "b"] := by
  intro cpu c ops
  have hbuilt : Built c := .ofNodes _ (by simp [Node.idle])
  obtain ⟨harranged, -, hstays⟩ := arranged_run hbuilt ops
  have hplaced : ((c.run ops).find? (.numbered 1)).bind Reservation.assignment = some [0, 1] := by
    decide +kernel
  obtain ⟨r, hr, hplaces⟩ := Option.bind_eq_some_iff.1 hplaced
  have hkept : ∀ op ∈ [Operation.setDraining (Q := Rat) "a" true, .setDraining "b" true],
      Operation.released? op ≠ some r.token := by
    simp [Operation.released?]
  obtain ⟨-, -, -, hnames⟩ := hstays r (mem_of_find? hr) [0, 1] hplaces _ hkept
  rw [token_of_find? hr] at hnames
  exact ⟨hbuilt, by decide +kernel, harranged, hnames.trans (by decide +kernel)⟩

end Cluster

end ActorPlacement
