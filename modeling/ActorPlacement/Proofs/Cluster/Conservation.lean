import ActorPlacement.Proofs.Cluster.Records

/-!
# Nothing is lost and nothing is counted twice

`held` adds up what reservations hold on a node. In a cluster that counts exactly, what is free on a node
and what live reservations hold there is what the node has (`Balanced`). The planner works on a copy
of what is free, placements take from the nodes and releases give back; each is one move, and
`Balanced.move` goes through them.
-/

namespace ActorPlacement

/-- The bundles of a reservation that lie on the node in some place. -/
def Reservation.bundlesAt {Q : Type} (r : Reservation Q) (place : Nat) : List (Bundle Q) :=
  r.assignment.elim [] fun places => bundlesOn (r.bundles.zip places) place

/-- How much of a resource some reservations hold on the node in some place. -/
def held (reservations : List (Reservation Rat)) (place : Nat) (name : String) : Rat :=
  ((reservations.flatMap fun r => r.bundlesAt place).map (Bundle.amount · name)).sum

section Held

variable {reservations others : List (Reservation Rat)} {r : Reservation Rat} {place : Nat}

theorem held_cons (name : String) : held (r :: reservations) place name
    = ((r.bundlesAt place).map (Bundle.amount · name)).sum + held reservations place name := by
  rw [held, List.flatMap_cons, List.map_append, List.sum_append]
  rfl

theorem held_perm (h : reservations.Perm others) (name : String) :
    held reservations place name = held others place name :=
  ((h.flatMap_right _).map _).sum_eq

theorem bundlesAt_of_waiting (h : r.assignment = none) : r.bundlesAt place = [] := by
  simp [Reservation.bundlesAt, h]

theorem bundlesAt_of_placed {places : List Nat} (h : r.assignment = some places) :
    r.bundlesAt place = bundlesOn (r.bundles.zip places) place := by
  simp [Reservation.bundlesAt, h]

theorem mem_of_mem_bundlesAt {b : Bundle Rat} (h : b ∈ r.bundlesAt place) : b ∈ r.bundles := by
  cases hassigned : r.assignment with
  | none =>
    rw [bundlesAt_of_waiting hassigned] at h
    cases h
  | some places =>
    rw [bundlesAt_of_placed hassigned] at h
    exact mem_of_mem_bundlesOn h

theorem bundlesOn_of_not_mem {Q : Type} {bundles : List (Bundle Q)} {places : List Nat} {place : Nat}
    (h : place ∉ places) : bundlesOn (bundles.zip places) place = [] := by
  rw [bundlesOn, List.map_eq_nil_iff, List.filter_eq_nil_iff]
  intro p hp heq
  refine h ?_
  rw [← of_decide_eq_true heq]
  exact (List.of_mem_zip hp).2

end Held

namespace Cluster

/-- What is free on every node of the cluster and what live reservations hold there is what the node has.
Nothing that is free is below zero unless the node has less than nothing. -/
structure Balanced (c : Cluster Rat) : Prop where
  valid : ∀ r ∈ c.reservations, ∀ b ∈ r.bundles, Bundle.fault? b = none
  conserved : ∀ (place : Nat) (n : Node Rat), c.nodes[place]? = some n → ∀ name,
    Bundle.amount n.capacity name = Bundle.amount n.free name + held c.reservations place name
  floor : ∀ (place : Nat) (n : Node Rat), c.nodes[place]? = some n → ∀ name,
    min 0 (Bundle.amount n.capacity name) ≤ Bundle.amount n.free name

variable {c c' : Cluster Rat}

theorem Unused.balanced (h : Unused c) : Balanced c where
  valid := by simp [h.reservations]
  conserved place n hn name := by
    rw [h.idle n (List.mem_of_getElem? hn), h.reservations]
    simp [held]
  floor place n hn name := by
    rw [h.idle n (List.mem_of_getElem? hn)]
    exact min_le_right _ _

/-- Nothing is held outside the nodes. -/
theorem Orderly.held_eq_zero (h : Orderly c) {place : Nat} (hplace : c.nodes.length ≤ place)
    (name : String) : held c.reservations place name = 0 := by
  have hnone : (c.reservations.flatMap fun r => r.bundlesAt place) = [] := by
    refine List.flatMap_eq_nil_iff.2 fun r hr => ?_
    cases hassigned : r.assignment with
    | none => exact bundlesAt_of_waiting hassigned
    | some places =>
      rw [bundlesAt_of_placed hassigned]
      refine bundlesOn_of_not_mem fun hmem => ?_
      have := h.places r hr places hassigned place hmem
      omega
  simp [held, hnone]

/-- Where nobody holds anything, all that a node has is free. -/
theorem Balanced.free_eq_capacity (h : Balanced c) (hnone : c.reservations = []) {n : Node Rat}
    (hn : n ∈ c.nodes) (name : String) : Bundle.amount n.free name = Bundle.amount n.capacity name := by
  obtain ⟨place, hplace⟩ := List.getElem?_of_mem hn
  rw [h.conserved place n hplace name, hnone]
  simp [held]

/-- Whatever is held, no more is free on a node than the node has. -/
theorem Balanced.free_le_capacity (h : Balanced c) {place : Nat} {n : Node Rat}
    (hn : c.nodes[place]? = some n) (name : String) :
    Bundle.amount n.free name ≤ Bundle.amount n.capacity name := by
  have hheld : 0 ≤ held c.reservations place name := by
    refine Bundle.sum_amount_nonneg (fun b hb => ?_) name
    obtain ⟨r, hr, hb⟩ := List.mem_flatMap.1 hb
    exact h.valid r hr b (mem_of_mem_bundlesAt hb)
  have hsum := h.conserved place n hn name
  linarith

theorem Balanced.join (h : Balanced c) (horderly : Orderly c) (id : String) (resources : Bundle Rat)
    (draining : Bool) : Balanced { c with nodes := c.nodes ++ [Node.idle id resources draining] } := by
  have hcases : ∀ {place : Nat} {n : Node Rat},
      (c.nodes ++ [Node.idle id resources draining])[place]? = some n →
        c.nodes[place]? = some n
          ∨ (c.nodes.length ≤ place ∧ n = Node.idle id resources draining) := by
    intro place n hn
    rw [List.getElem?_append] at hn
    split at hn
    · exact .inl hn
    · rename_i hplace
      exact .inr ⟨Nat.le_of_not_lt hplace, List.mem_singleton.1 (List.mem_of_getElem? hn)⟩
  refine ⟨h.valid, fun place n hn name => ?_, fun place n hn name => ?_⟩
  · rcases hcases hn with hn | ⟨hplace, rfl⟩
    · exact h.conserved place n hn name
    · rw [horderly.held_eq_zero hplace name, add_zero]
      rfl
  · rcases hcases hn with hn | ⟨-, rfl⟩
    · exact h.floor place n hn name
    · exact min_le_right _ _

theorem Balanced.drain (h : Balanced c) (place : Nat) (draining : Bool) :
    Balanced { c with nodes := c.nodes.modify place fun n => { n with draining } } := by
  have hsame : ∀ {i : Nat} {n : Node Rat},
      (c.nodes.modify place fun n => { n with draining })[i]? = some n →
        ∃ m, c.nodes[i]? = some m ∧ n.capacity = m.capacity ∧ n.free = m.free := by
    intro i n hn
    rw [List.getElem?_modify] at hn
    obtain ⟨m, hm, rfl⟩ := Option.map_eq_some_iff.1 hn
    refine ⟨m, hm, ?_⟩
    split <;> exact ⟨rfl, rfl⟩
  refine ⟨h.valid, fun i n hn name => ?_, fun i n hn name => ?_⟩
  · obtain ⟨m, hm, hcapacity, hfree⟩ := hsame hn
    rw [hcapacity, hfree]
    exact h.conserved i m hm name
  · obtain ⟨m, hm, hcapacity, hfree⟩ := hsame hn
    rw [hcapacity, hfree]
    exact h.floor i m hm name

theorem Balanced.enlist (h : Balanced c) (horderly : Orderly c) {bundles : List (Bundle Rat)}
    {strategy : Strategy} (haccepted : c.refusal? bundles strategy = none) :
    Balanced (c.enlist bundles strategy) := by
  refine ⟨?_, fun place n hn name => ?_, h.floor⟩
  · intro r hr
    rw [horderly.reservations_enlist] at hr
    rcases List.mem_append.1 hr with hr | hr
    · exact h.valid r hr
    · rw [List.mem_singleton.1 hr]
      exact (refusal?_eq_none_iff.1 haccepted).valid
  · rw [horderly.reservations_enlist, held_perm (List.perm_append_singleton _ _) name, held_cons,
      bundlesAt_of_waiting rfl]
    simpa using h.conserved place n hn name

/-- What is taken for a plan is what the reservation then holds. -/
theorem Balanced.placeAt (h : Balanced c) (horderly : Orderly c) {r : Reservation Rat}
    {places : List Nat} (hlive : c.find? r.token = some r) (hwaiting : r.assignment = none)
    (hplan : plan? c.nodes r.bundles r.strategy = some places) : Balanced (c.placeAt r places) := by
  have hvalid := h.valid r (mem_of_find? hlive)
  refine ⟨?_, fun place n hn name => ?_, fun place n hn name => ?_⟩
  · intro s hs
    rcases (horderly.mem_placeAt hlive).1 hs with rfl | ⟨hs, -⟩
    · exact hvalid
    · exact h.valid s hs
  · obtain ⟨m, hm, rfl⟩ := Option.map_eq_some_iff.1 ((getElem?_takeAll _ _ place).symm.trans hn)
    have hbefore := h.conserved place m hm name
    rw [held_perm (horderly.perm_drop hlive) name, held_cons, bundlesAt_of_waiting hwaiting] at hbefore
    rw [held_perm (horderly.perm_placeAt hlive places) name, held_cons, bundlesAt_of_placed rfl]
    simp only [List.map_nil, List.sum_nil, zero_add] at hbefore
    rw [amount_takeAll hplan hvalid hm name, hbefore]
    ring
  · obtain ⟨m, hm, rfl⟩ := Option.map_eq_some_iff.1 ((getElem?_takeAll _ _ place).symm.trans hn)
    have hfloor := h.floor place m hm name
    have hcovers := plan?_covers hplan hvalid hm
    rw [amount_takeAll hplan hvalid hm name, ← Bundle.amount_total]
    -- the total is covered where it names the resource, and is nothing elsewhere
    by_cases hname : Bundle.Names (Bundle.total (bundlesOn (r.bundles.zip places) place)) name
    · have hle := Bundle.covers_iff.1 hcovers name hname
      have hmin := min_le_left 0 (Bundle.amount m.capacity name)
      show min 0 (Bundle.amount m.capacity name) ≤ _
      linarith
    · rw [Bundle.amount_of_not_names hname, sub_zero]
      exact hfloor

/-- What a dropped reservation held is free again. -/
theorem Balanced.drop (h : Balanced c) (horderly : Orderly c) {r : Reservation Rat}
    (hlive : c.find? r.token = some r) : Balanced (c.drop r) := by
  have hvalid := h.valid r (mem_of_find? hlive)
  have hback : ∀ {place : Nat} {n : Node Rat}, (c.drop r).nodes[place]? = some n →
      ∃ m, c.nodes[place]? = some m
        ∧ n = { m with free := (r.bundlesAt place).foldl Bundle.add m.free } := by
    intro place n hn
    cases hassigned : r.assignment with
    | none =>
      rw [bundlesAt_of_waiting hassigned]
      simp only [Cluster.drop, hassigned] at hn
      exact ⟨n, hn, rfl⟩
    | some places =>
      rw [bundlesAt_of_placed hassigned]
      simp only [Cluster.drop, hassigned, Option.elim_some, getElem?_giveAll] at hn
      obtain ⟨m, hm, rfl⟩ := Option.map_eq_some_iff.1 hn
      exact ⟨m, hm, rfl⟩
  refine ⟨fun s hs => h.valid s (mem_reservations_drop.1 hs).1, fun place n hn name => ?_,
    fun place n hn name => ?_⟩
  · obtain ⟨m, hm, rfl⟩ := hback hn
    have hbefore := h.conserved place m hm name
    rw [held_perm (horderly.perm_drop hlive) name, held_cons] at hbefore
    rw [Bundle.amount_foldl_add, hbefore]
    ring
  · obtain ⟨m, hm, rfl⟩ := hback hn
    have hfloor := h.floor place m hm name
    have hpos : 0 ≤ ((r.bundlesAt place).map (Bundle.amount · name)).sum :=
      Bundle.sum_amount_nonneg (fun b hb => hvalid b (mem_of_mem_bundlesAt hb)) name
    rw [Bundle.amount_foldl_add]
    show min 0 (Bundle.amount m.capacity name) ≤ _
    linarith

/-- Every move of an orderly cluster keeps it balanced. -/
theorem Balanced.move (hmove : Move c c') (horderly : Orderly c) (h : Balanced c) : Balanced c' := by
  cases hmove with
  | queue pending => exact ⟨h.valid, h.conserved, h.floor⟩
  | join id resources draining new => exact h.join horderly id resources draining
  | drain place draining => exact h.drain place draining
  | enlist bundles strategy accepted => exact h.enlist horderly accepted
  | place r places live waiting planned => exact h.placeAt horderly live waiting planned
  | drop r live => exact h.drop horderly live

theorem balanced_run (h : Built c) (ops : List (Operation Rat)) : Balanced (c.run ops) := by
  have hboth := run_invariant (P := fun c => Orderly c ∧ Balanced c)
    (fun hmove hc => ⟨hc.1.move hmove, hc.2.move hmove hc.1⟩)
    ⟨h.unused.orderly, h.unused.balanced⟩ ops
  exact hboth.2

/-- **Resources are conserved.** After every run, what a node has of a resource is what is free on it and
what live reservations hold there, who never hold more than the node has. The bundles of a reservation
have no faults, and taking such bundles for a plan takes all of them: the floor at zero hides nothing. -/
theorem conserved_run (h : Built c) (ops : List (Operation Rat)) :
    (∀ (place : Nat) (n : Node Rat), (c.run ops).nodes[place]? = some n → ∀ name,
        Bundle.amount n.capacity name
            = Bundle.amount n.free name + held (c.run ops).reservations place name
          ∧ held (c.run ops).reservations place name ≤ max 0 (Bundle.amount n.capacity name))
      ∧ (∀ r ∈ (c.run ops).reservations, ∀ b ∈ r.bundles, Bundle.fault? b = none)
      ∧ ∀ (nodes : List (Node Rat)) (bundles : List (Bundle Rat)) (strategy : Strategy)
          (places : List Nat), (∀ b ∈ bundles, Bundle.fault? b = none) →
          plan? nodes bundles strategy = some places →
          ∀ (place : Nat) (n : Node Rat), nodes[place]? = some n → ∀ name,
            ∃ taken, (takeAll nodes (bundles.zip places))[place]? = some taken
              ∧ Bundle.amount n.free name = Bundle.amount taken.free name
                + ((bundlesOn (bundles.zip places) place).map (Bundle.amount · name)).sum := by
  have hbalanced := balanced_run h ops
  refine ⟨fun place n hn name => ?_, hbalanced.valid, ?_⟩
  · have hsum := hbalanced.conserved place n hn name
    have hfloor := hbalanced.floor place n hn name
    refine ⟨hsum, ?_⟩
    rcases le_total 0 (Bundle.amount n.capacity name) with hcapacity | hcapacity
    · rw [min_eq_left hcapacity] at hfloor
      rw [max_eq_right hcapacity]
      linarith
    · rw [min_eq_right hcapacity] at hfloor
      rw [max_eq_left hcapacity]
      linarith
  · intro nodes bundles strategy places hvalid hplan place n hn name
    refine ⟨_, by rw [getElem?_takeAll, hn, Option.map_some], ?_⟩
    rw [amount_takeAll hplan hvalid hn name]
    ring

/-- A node of four that gives three and gets one back has two free. -/
theorem conserved_run_three :
    let cpus (q : Rat) : Bundle Rat := NameMap.empty.insert "CPU" q
    let c : Cluster Rat := ofNodes [Node.idle "n" (cpus 4) false]
    let ops := [Operation.submit [cpus 1] .spread, .submit [cpus 2] .pack, .release (Token.numbered 1)]
    ∃ n, (c.run ops).nodes[0]? = some n ∧ Bundle.amount n.free "CPU" = 2
      ∧ Bundle.amount n.capacity "CPU"
        = Bundle.amount n.free "CPU" + held (c.run ops).reservations 0 "CPU" := by
  intro cpus c ops
  have hbuilt : Built c := .ofNodes _ (by simp [Node.idle])
  have hfree : (c.run ops).nodes[0]?.map (fun n => Bundle.amount n.free "CPU") = some 2 := by
    decide +kernel
  obtain ⟨n, hn, hamount⟩ := Option.map_eq_some_iff.1 hfree
  exact ⟨n, hn, hamount, ((conserved_run hbuilt ops).1 0 n hn "CPU").1⟩

end Cluster

end ActorPlacement
