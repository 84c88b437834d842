import ActorPlacement.Proofs.Cluster.Vacancy

/-!
# Who was first

A submission does not look at the queue, and yet nobody overtakes an earlier request that asks for no
more: if both go to one node, a node that can take the later one could have taken the earlier one, which
would not be waiting then (`Passing.fair_placeAt`). There is one way around this. Whether a node covers a
request is tested for the resources that the request names, so a node that has less than nothing of some
resource is closed to those who name it, even with a zero, and open to the others.
-/

namespace ActorPlacement

/-- A token was issued before another. -/
def Token.Precedes (a b : Token) : Prop :=
  ∃ m n, m < n ∧ a = Token.numbered m ∧ b = Token.numbered n

theorem Token.Precedes.asymm {a b : Token} (h : a.Precedes b) : ¬b.Precedes a := by
  rintro ⟨k, l, hkl, rfl, rfl⟩
  obtain ⟨m, n, hmn, hl, hk⟩ := h
  have := Token.numbered_injective hl
  have := Token.numbered_injective hk
  omega

/-- A request waits although a later one that asks for no less is placed. -/
structure Reservation.Overtaken (u v : Reservation Rat) : Prop where
  earlier : u.token.Precedes v.token
  whole : GoesWhole u.strategy u.bundles
  whole' : GoesWhole v.strategy v.bundles
  less : ∀ name, Bundle.amount (Bundle.total u.bundles) name ≤ Bundle.amount (Bundle.total v.bundles) name
  waiting : u.assignment = none
  placed : v.assignment.isSome

namespace Cluster

variable {c c' : Cluster Rat} {u v r : Reservation Rat} {token t : Token} {todo : List Token}
  {places : List Nat} {name : String}

/-- Some node has less than nothing of a resource. -/
def Lacks (c : Cluster Rat) (name : String) : Prop :=
  ∃ n ∈ c.nodes, Bundle.amount n.capacity name < 0

/-- Whoever is overtaken names a resource that the other does not name and that some node lacks. -/
def Fair (c : Cluster Rat) : Prop :=
  ∀ u ∈ c.reservations, ∀ v ∈ c.reservations, u.Overtaken v →
    ∃ name, Bundle.Names (Bundle.total u.bundles) name ∧ ¬Bundle.Names (Bundle.total v.bundles) name
      ∧ Lacks c name

/-! ## The order of tokens -/

theorem issuedTokens_pairwise {Q : Type} (c : Cluster Q) : c.issuedTokens.Pairwise Token.Precedes := by
  rw [issuedTokens, List.pairwise_map]
  exact (List.pairwise_lt_range' (s := 1) (n := c.issued)).imp fun {m n} hmn => ⟨m, n, hmn, rfl, rfl⟩

/-- Who waits and was before the token that is tried was tried already. -/
theorem Passing.mem_pending (h : Passing c (token :: todo)) (hwaiting : t ∈ c.waiting)
    (hbefore : t.Precedes token) : t ∈ c.pending := by
  have hordered := (c.issuedTokens_pairwise.sublist h.orderly.numbered).sublist c.waiting_sublist
  rw [← h.queue] at hordered hwaiting
  obtain ⟨-, htail, -⟩ := List.pairwise_append.1 hordered
  rcases List.mem_append.1 hwaiting with hpending | hlater
  · exact hpending
  · rcases List.mem_cons.1 hlater with rfl | htodo
    · exact absurd hbefore hbefore.asymm
    · exact absurd ((List.pairwise_cons.1 htail).1 t htodo) hbefore.asymm

/-! ## What a node lacks -/

theorem lacks_iff : Lacks c name ↔ ∃ b ∈ c.nodes.map Node.capacity, Bundle.amount b name < 0 := by
  simp [Lacks]

/-- Nodes stay, and with them what they lack. -/
theorem Lacks.move (hmove : Move c c') (h : Lacks c name) : Lacks c' name := by
  obtain ⟨added, hadded⟩ := hmove.map_nodes Node.capacity (fun _ _ => rfl) fun _ _ => rfl
  obtain ⟨b, hb, hlow⟩ := lacks_iff.1 h
  exact lacks_iff.2 ⟨b, hadded ▸ List.mem_append_left _ hb, hlow⟩

/-- Where a later request that asks for no less goes, an earlier one could go too, unless it names a
resource that the node lacks. -/
theorem Balanced.lacks_of_canTake (h : Balanced c)
    (hless : ∀ name, Bundle.amount (Bundle.total u.bundles) name
      ≤ Bundle.amount (Bundle.total r.bundles) name)
    {place : Nat} (hcan : CanTake c.nodes place (Bundle.total r.bundles))
    (hcannot : ¬CanTake c.nodes place (Bundle.total u.bundles)) :
    ∃ name, Bundle.Names (Bundle.total u.bundles) name ∧ ¬Bundle.Names (Bundle.total r.bundles) name
      ∧ Lacks c name := by
  obtain ⟨n, hn, hin, hcovers⟩ := hcan
  have hnot : ¬Bundle.covers n.free (Bundle.total u.bundles) = true := fun h => hcannot ⟨n, hn, hin, h⟩
  rw [Bundle.covers_iff] at hnot
  push Not at hnot
  obtain ⟨name, hname, hshort⟩ := hnot
  have hunnamed : ¬Bundle.Names (Bundle.total r.bundles) name := fun hr =>
    absurd ((hless name).trans (Bundle.covers_iff.1 hcovers name hr)) (not_le.2 hshort)
  refine ⟨name, hname, hunnamed, n, List.mem_of_getElem? hn, ?_⟩
  -- nothing is asked of this resource, so less than nothing is free
  have hzero := Bundle.amount_of_not_names hunnamed
  have hfloor := h.floor place n hn name
  have hle := hless name
  by_contra hcapacity
  rw [min_eq_left (not_lt.1 hcapacity)] at hfloor
  linarith

/-! ## Moves and passes -/

theorem Fair.move (h : Fair c) (hmove : Move c c')
    (hsame : ∀ s ∈ c'.reservations, s ∈ c.reservations) : Fair c' := by
  intro u hu v hv hover
  obtain ⟨name, hname, hunnamed, hlacks⟩ := h u (hsame u hu) v (hsame v hv) hover
  exact ⟨name, hname, hunnamed, hlacks.move hmove⟩

theorem Fair.queue (h : Fair c) (pending : List Token) : Fair { c with pending } := h

/-- A new reservation overtakes nobody, and is the last that could be overtaken. -/
theorem Fair.enlist (h : Fair c) (horderly : Orderly c) (bundles : List (Bundle Rat))
    (strategy : Strategy) : Fair (c.enlist bundles strategy) := by
  intro u hu v hv hover
  rw [horderly.reservations_enlist] at hu hv
  have hv : v ∈ c.reservations := by
    refine (List.mem_append.1 hv).resolve_right fun hnew => ?_
    have hplaced := hover.placed
    rw [List.mem_singleton.1 hnew] at hplaced
    cases hplaced
  have hu : u ∈ c.reservations := by
    refine (List.mem_append.1 hu).resolve_right fun hnew => ?_
    obtain ⟨k, hk, htoken⟩ := List.mem_map.1 (horderly.numbered.subset (List.mem_map_of_mem hv))
    have hbound := List.mem_range'_1.1 hk
    refine hover.earlier.asymm ⟨k, c.issued + 1, by omega, htoken.symm, ?_⟩
    rw [List.mem_singleton.1 hnew]
  exact h u hu v hv hover

/-- Who is placed in a pass overtakes nobody who could have been placed. -/
theorem Passing.fair_placeAt (hpassing : Passing c (r.token :: todo)) (hvacancy : NoVacancy c)
    (h : Fair c) (hlive : c.find? r.token = some r) (hwaiting : r.assignment = none)
    (hplan : plan? c.nodes r.bundles r.strategy = some places) : Fair (c.placeAt r places) := by
  have hmove : Move c (c.placeAt r places) := .place c r places hlive hwaiting hplan
  intro u hu v hv hover
  have hu : u ∈ c.reservations := by
    rcases (hpassing.orderly.mem_placeAt hlive).1 hu with rfl | ⟨hu, -⟩
    · cases hover.waiting
    · exact hu
  have hcause : ∃ name, Bundle.Names (Bundle.total u.bundles) name
      ∧ ¬Bundle.Names (Bundle.total v.bundles) name ∧ Lacks c name := by
    rcases (hpassing.orderly.mem_placeAt hlive).1 hv with rfl | ⟨hv, -⟩
    · have hvalid := hpassing.balanced.valid r (mem_of_find? hlive)
      obtain ⟨place, hcan, -⟩ := exists_canTake_of_plan? hover.whole' hvalid hplan
      have htried := hpassing.mem_pending (mem_waiting.2 ⟨u, hu, rfl, hover.waiting⟩) hover.earlier
      exact hpassing.balanced.lacks_of_canTake hover.less hcan
        (hvacancy u hu htried hover.whole place)
    · exact h u hu v hv hover
  obtain ⟨name, hname, hunnamed, hlacks⟩ := hcause
  exact ⟨name, hname, hunnamed, hlacks.move hmove⟩

theorem Passing.fair_retry (hpassing : Passing c (token :: todo)) (hvacancy : NoVacancy c)
    (h : Fair c) : Fair (c.retry token) := by
  rcases retry_cases c token with ⟨heq, -⟩ | ⟨heq, -⟩ | ⟨r, places, hfind, hwaiting, hplan, heq⟩ <;> rw [heq]
  · exact h
  · exact h
  · obtain rfl := token_of_find? hfind
    exact hpassing.fair_placeAt hvacancy h hfind hwaiting hplan

theorem fair_kept : KeptByPasses fun c => NoVacancy c ∧ Fair c where
  join {c} hc h id resources draining new :=
    ⟨noVacancy_kept.join hc h.1 id resources draining new,
      (h.2.move (.join c id resources draining new) fun _ hs => hs).queue []⟩
  drain {c} hc h place := ⟨noVacancy_kept.drain hc h.1 place, h.2.move (.drain c place true) fun _ hs => hs⟩
  reopen {c} hc h place :=
    ⟨noVacancy_kept.reopen hc h.1 place, (h.2.move (.drain c place false) fun _ hs => hs).queue []⟩
  enlist hc h bundles strategy accepted :=
    ⟨noVacancy_kept.enlist hc h.1 bundles strategy accepted, h.2.enlist hc.orderly bundles strategy⟩
  drop {c} hc h r live :=
    ⟨noVacancy_kept.drop hc h.1 r live,
      (h.2.move (.drop c r live) fun _ hs => (mem_reservations_drop.1 hs).1).queue []⟩
  retry hc h := ⟨noVacancy_kept.retry hc h.1, hc.fair_retry h.1 h.2⟩

theorem fair_run (h : Built c) (ops : List (Operation Rat)) : Fair (c.run ops) := by
  have hstart : Fair c := by
    intro u hu
    rw [h.unused.reservations] at hu
    cases hu
  exact (fair_kept.run h ⟨noVacancy_of_pending_eq_nil h.unused.pending, hstart⟩ ops).2

/-! ## No overtaking -/

/-- Tokens are granted in their order. -/
theorem precedes_of_granted (h : Built c) {ops : List (Operation Rat)} {a b : Token}
    (hearlier : [a, b].Sublist (c.granted ops)) : a.Precedes b := by
  have hgranted : (c.run ops).issuedTokens = c.granted ops := by
    rw [issuedTokens_run, issuedTokens, h.unused.issued]
    rfl
  rw [← hgranted] at hearlier
  exact List.pairwise_pair.1 ((issuedTokens_pairwise _).sublist hearlier)

/-- **No overtaking by an equal or larger request.** In no state of a run is a request placed while an
earlier one that asks for no more is pending, if both go to one node and no node has less than nothing of
a resource that only the earlier one names. -/
theorem not_overtaken_run (h : Built c) (ops : List (Operation Rat))
    (hu : u ∈ (c.run ops).reservations) (hv : v ∈ (c.run ops).reservations)
    (hearlier : [u.token, v.token].Sublist (c.granted ops))
    (hwhole : GoesWhole u.strategy u.bundles) (hwhole' : GoesWhole v.strategy v.bundles)
    (hless : ∀ name, Bundle.amount (Bundle.total u.bundles) name
      ≤ Bundle.amount (Bundle.total v.bundles) name)
    (hcapacity : ∀ name, Bundle.Names (Bundle.total u.bundles) name →
      ¬Bundle.Names (Bundle.total v.bundles) name →
        ∀ n ∈ (c.run ops).nodes, 0 ≤ Bundle.amount n.capacity name)
    (hpending : u.token ∈ (c.run ops).pending) : v.assignment = none := by
  have horderly := orderly_run h ops
  have hwaiting : u.assignment = none :=
    horderly.assignment_of_waiting (pending_run h ops ▸ hpending) (horderly.find?_token hu)
  by_contra hplaced
  have hover : u.Overtaken v :=
    ⟨precedes_of_granted h hearlier, hwhole, hwhole', hless, hwaiting, Option.isSome_iff_ne_none.2 hplaced⟩
  obtain ⟨name, hname, hunnamed, n, hn, hlow⟩ := fair_run h ops u hu v hv hover
  exact absurd hlow (not_lt.2 (hcapacity name hname hunnamed n hn))

/-- Two units are pending on a node with one left, so three units, asked for later, are pending too. -/
theorem not_overtaken_run_larger :
    let cpus (q : Rat) : Bundle Rat := NameMap.empty.insert "CPU" q
    let c : Cluster Rat := ofNodes [Node.idle "n" (cpus 4) false]
    let ops := [Operation.submit [cpus 3] .pack, .submit [cpus 1, cpus 1] .strictPack,
      .submit [cpus 3] .spread]
    Built c ∧ ((c.run ops).find? (.numbered 3)).map Reservation.assignment = some none := by
  intro cpus c ops
  have hbuilt : Built c := .ofNodes _ (by simp [Node.idle])
  have hu : (c.run ops).find? (.numbered 2)
      = some ⟨.numbered 2, [cpus 1, cpus 1], .strictPack, none, false⟩ := by decide +kernel
  have hv : (c.run ops).find? (.numbered 3) = some ⟨.numbered 3, [cpus 3], .spread, none, false⟩ := by
    decide +kernel
  have hcapacity : ∀ n ∈ (c.run ops).nodes, Bundle.fault? n.capacity = none := by decide +kernel
  have hnone := not_overtaken_run hbuilt ops (mem_of_find? hu) (mem_of_find? hv)
    (by decide +kernel) (.inl rfl) (.inr rfl) ?_ (fun _ _ _ n hn => Bundle.amount_nonneg (hcapacity n hn) _)
    (by decide +kernel)
  · exact ⟨hbuilt, by rw [hv, Option.map_some, hnone]⟩
  · intro name
    rw [Bundle.amount_total, Bundle.amount_total]
    by_cases hname : "CPU" = name
    · simp [cpus, Bundle.amount, hname]
      norm_num
    · simp [cpus, Bundle.amount, NameMap.find?_insert, hname]

/-- Who asks for no GPUs by name is overtaken on a node that has less than none. -/
theorem overtaken_of_deficit :
    let cpu : Bundle Rat := NameMap.empty.insert "CPU" 1
    let c : Cluster Rat :=
      ofNodes [Node.idle "n1" (cpu.insert "GPU" (-1)) false, Node.idle "n2" cpu true]
    let ops := [Operation.submit [cpu.insert "GPU" 0] .pack, .submit [cpu] .pack]
    Built c ∧ ∃ u ∈ (c.run ops).reservations, ∃ v ∈ (c.run ops).reservations,
      [u.token, v.token].Sublist (c.granted ops)
        ∧ GoesWhole u.strategy u.bundles ∧ GoesWhole v.strategy v.bundles
        ∧ (∀ name, Bundle.amount (Bundle.total u.bundles) name
            ≤ Bundle.amount (Bundle.total v.bundles) name)
        ∧ u.token ∈ (c.run ops).pending ∧ v.assignment.isSome := by
  intro cpu c ops
  have hbuilt : Built c := .ofNodes _ (by simp [Node.idle])
  have hu : (c.run ops).find? (.numbered 1)
      = some ⟨.numbered 1, [cpu.insert "GPU" 0], .pack, none, false⟩ := by decide +kernel
  have hv : (c.run ops).find? (.numbered 2) = some ⟨.numbered 2, [cpu], .pack, some [0], true⟩ := by
    decide +kernel
  refine ⟨hbuilt, _, mem_of_find? hu, _, mem_of_find? hv, by decide +kernel, .inr rfl, .inr rfl, ?_,
    by decide +kernel, rfl⟩
  intro name
  rw [Bundle.amount_total, Bundle.amount_total]
  by_cases hgpu : "GPU" = name
  · subst hgpu
    decide +kernel
  · simp [cpu, Bundle.amount, NameMap.find?_insert, hgpu]

end Cluster

end ActorPlacement
