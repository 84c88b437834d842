import ActorPlacement.Proofs.Planning.Completeness
import Mathlib.Algebra.BigOperators.Fin
import Mathlib.Data.Finset.Card

/-!
# Spreading copies of one bundle

All that matters for a copy is which nodes are open to it: those that can take it and are not used yet.
A choice closes the chosen node and no other (`openPlaces_take`), whichever node the scores put first,
and a spreading strategy chooses an open one while there is any. So `strictSpread` places as many copies
as there are open nodes, and `spread` uses a new node for each of them before it uses one twice.
-/

namespace ActorPlacement

section Open

variable {Q : Type} [Quantity Q] {nodes : List (Node Q)} {used : List Bool} {b : Bundle Q}
  {place q k : Nat} {places later : List Nat}

/-- The places of the nodes that can take a bundle and are not used yet. -/
def openPlaces (nodes : List (Node Q)) (used : List Bool) (b : Bundle Q) : Finset Nat :=
  (Finset.range nodes.length).filter fun place => CanTake nodes place b ∧ used[place]? = some false

/-- The places among some that were not used before. -/
def newPlaces (used : List Bool) (places : List Nat) : Finset Nat :=
  places.toFinset.filter fun place => used[place]? = some false

theorem mem_openPlaces :
    place ∈ openPlaces nodes used b ↔ CanTake nodes place b ∧ used[place]? = some false := by
  rw [openPlaces, Finset.mem_filter, Finset.mem_range, and_iff_right_iff_imp]
  rintro ⟨⟨n, hn, -⟩, -⟩
  exact (List.getElem?_eq_some_iff.1 hn).1

/-- A choice closes the chosen node, and opens or closes no other. -/
theorem openPlaces_take (f : Bundle Q → Bundle Q) :
    openPlaces (Cluster.changeFree nodes q f) (used.set q true) b = (openPlaces nodes used b).erase q := by
  ext place
  rw [Finset.mem_erase, mem_openPlaces, mem_openPlaces, getElem?_set_used, ne_comm]
  constructor
  · rintro ⟨hcan, hne, hunused⟩
    exact ⟨hne, (canTake_changeFree_of_ne hne.symm).1 hcan, hunused⟩
  · rintro ⟨hne, hcan, hunused⟩
    exact ⟨(canTake_changeFree_of_ne hne.symm).2 hcan, hne, hunused⟩

theorem card_openPlaces_take (f : Bundle Q → Bundle Q) (hopen : q ∈ openPlaces nodes used b) :
    (openPlaces (Cluster.changeFree nodes q f) (used.set q true) b).card + 1
      = (openPlaces nodes used b).card := by
  rw [openPlaces_take, Finset.card_erase_add_one hopen]

/-- A place that was used before is not new, and one that was not is new once. -/
theorem card_newPlaces_cons (q : Nat) (later : List Nat) : (newPlaces used (q :: later)).card
    = (newPlaces (used.set q true) later).card + if used[q]? = some false then 1 else 0 := by
  have hothers : newPlaces (used.set q true) later = (newPlaces used (q :: later)).erase q := by
    ext place
    simp only [newPlaces, Finset.mem_erase, Finset.mem_filter, List.mem_toFinset, List.mem_cons,
      getElem?_set_used, ne_comm]
    tauto
  rw [hothers]
  split
  · rename_i hunused
    have hmem : q ∈ newPlaces used (q :: later) := by simp [newPlaces, hunused]
    exact (Finset.card_erase_add_one hmem).symm
  · rename_i hunused
    have hnotMem : q ∉ newPlaces used (q :: later) := by simp [newPlaces, hunused]
    rw [Finset.erase_eq_of_notMem hnotMem, Nat.add_zero]

/-- `strictSpread` chooses an open node, and some while there is any. -/
theorem Plan.Board.choose?_strictSpread_mem
    (h : (on nodes used).choose? .strictSpread b = some q) : q ∈ openPlaces nodes used b :=
  mem_openPlaces.2 ⟨(choose?_sound h).1, (choose?_sound h).2 rfl⟩

theorem Plan.Board.choose?_strictSpread_isSome (h : (openPlaces nodes used b).Nonempty) :
    ((on nodes used).choose? .strictSpread b).isSome := by
  obtain ⟨place, hplace⟩ := h
  obtain ⟨hcan, hunused⟩ := mem_openPlaces.1 hplace
  exact choose?_isSome hcan fun _ => hunused

/-- `spread` uses a node again only when no node is open. -/
theorem Plan.Board.choose?_spread_mem (h : (on nodes used).choose? .spread b = some q) :
    q ∈ openPlaces nodes used b ∨ openPlaces nodes used b = ∅ ∧ used[q]? ≠ some false := by
  by_cases hunused : used[q]? = some false
  · exact .inl (mem_openPlaces.2 ⟨(choose?_sound h).1, hunused⟩)
  · refine .inr ⟨Finset.not_nonempty_iff_eq_empty.1 fun hopen => hunused ?_, hunused⟩
    obtain ⟨p, hp⟩ := Option.isSome_iff_exists.1 (choose?_strictSpread_isSome hopen)
    have hsame : (on nodes used).choose? .spread b = some p := (choose?_strictSpread_eq_some_iff.1 hp).1
    rw [h] at hsame
    cases hsame
    exact (choose?_sound hp).2 rfl

/-- `strictSpread` places as many copies as there are open nodes. -/
theorem Plan.each?_strictSpread_copies :
    (each? .strictSpread (Board.on nodes used) (List.replicate k b)).isSome
      ↔ k ≤ (openPlaces nodes used b).card := by
  induction k generalizing nodes used with
  | zero => exact iff_of_true rfl (Nat.zero_le _)
  | succ k ih =>
    rw [List.replicate_succ]
    constructor
    · intro h
      obtain ⟨places, hplaces⟩ := Option.isSome_iff_exists.1 h
      obtain ⟨q, later, hq, hlater, rfl⟩ := (each?_cons_eq_some b).1 hplaces
      have hleft := ih.1 (Option.isSome_iff_exists.2 ⟨later, hlater⟩)
      have hcard := card_openPlaces_take (Bundle.subtract · b) (Board.choose?_strictSpread_mem hq)
      omega
    · intro hle
      have hopen : (openPlaces nodes used b).Nonempty := Finset.card_pos.1 (by omega)
      obtain ⟨q, hq⟩ := Option.isSome_iff_exists.1 (Board.choose?_strictSpread_isSome hopen)
      rw [← card_openPlaces_take (Bundle.subtract · b) (Board.choose?_strictSpread_mem hq)] at hle
      exact each?_cons_isSome hq (ih.2 (Nat.le_of_succ_le_succ hle))

/-- `spread` uses every open node before it uses one twice. -/
theorem Plan.each?_spread_copies
    (h : each? .spread (Board.on nodes used) (List.replicate k b) = some places) :
    (newPlaces used places).card = min k (openPlaces nodes used b).card := by
  induction k generalizing nodes used places with
  | zero =>
    rw [(each?_nil_eq_some _).1 h, Nat.zero_min]
    rfl
  | succ k ih =>
    obtain ⟨q, later, hq, hlater, rfl⟩ := (each?_cons_eq_some b).1 h
    rw [card_newPlaces_cons, ih hlater]
    rcases Board.choose?_spread_mem hq with hopen | ⟨hnone, hused⟩
    · have hcard := card_openPlaces_take (Bundle.subtract · b) hopen
      rw [if_pos (mem_openPlaces.1 hopen).2]
      omega
    · simp [openPlaces_take, hnone, hused]

/-! ## At the start -/

/-- The places whose entry passes a test are as many as the entries that do. -/
theorem card_filter_range_any {α : Type} (test : α → Bool) (entries : List α) :
    ((Finset.range entries.length).filter fun i => entries[i]?.any test = true).card
      = entries.countP test := by
  induction entries with
  | nil => rfl
  | cons first rest ih =>
    rw [Finset.card_filter] at ih ⊢
    rw [List.length_cons, Finset.sum_range_succ', List.countP_cons, ← ih]
    rfl

theorem mem_openPlaces_unused :
    place ∈ openPlaces nodes (nodes.map fun _ => false) b ↔ CanTake nodes place b := by
  rw [mem_openPlaces, and_iff_left_iff_imp]
  rintro ⟨n, hn, -⟩
  exact getElem?_unused hn

theorem card_openPlaces_unused : (openPlaces nodes (nodes.map fun _ => false) b).card
    = nodes.countP fun n => !n.draining && Bundle.covers n.free b := by
  rw [← card_filter_range_any]
  congr 1
  ext place
  rw [mem_openPlaces_unused, canTake_iff_any, Finset.mem_filter, Finset.mem_range, iff_and_self]
  intro h
  obtain ⟨n, hn, -⟩ := canTake_iff_any.2 h
  exact (List.getElem?_eq_some_iff.1 hn).1

end Open

/-! ## The planner -/

section Copies

variable {nodes : List (Node Rat)} {b : Bundle Rat} {k : Nat} {places : List Nat}

/-- Copies that nodes can hold lie on nodes that can take the bundle. -/
theorem canTake_of_copies (hfree : FreeNonneg nodes) (hb : Bundle.fault? b = none)
    (hpermitted : Permitted nodes (List.replicate k b) .spread places)
    (hroom : HasRoom nodes ((List.replicate k b).zip places)) {place : Nat} (hplace : place ∈ places) :
    CanTake nodes place b := by
  have hvalid : ∀ other ∈ List.replicate k b, Bundle.fault? other = none :=
    List.forall_mem_replicate.2 (.inr hb)
  rw [← List.map_snd_zip hpermitted.length.le] at hplace
  obtain ⟨⟨copy, place⟩, hpart, rfl⟩ := List.mem_map.1 hplace
  have hcopy : copy = b := List.eq_of_mem_replicate (List.of_mem_zip hpart).1
  exact canTake_of_hasRoom hfree hvalid hpermitted hroom (hcopy ▸ hpart)

/-- `spread` finds places for copies whenever nodes can hold these. -/
theorem plan?_spread_copies_isSome_iff (hfree : FreeNonneg nodes) (hb : Bundle.fault? b = none) :
    (plan? nodes (List.replicate k b) .spread).isSome ↔ Possible nodes (List.replicate k b) .spread := by
  have hvalid : ∀ other ∈ List.replicate k b, Bundle.fault? other = none :=
    List.forall_mem_replicate.2 (.inr hb)
  constructor
  · intro h
    obtain ⟨places, hplan⟩ := Option.isSome_iff_exists.1 h
    exact ⟨places, plan?_permitted hplan, plan?_hasRoom hfree hvalid hplan⟩
  · have halike : ∀ copy ∈ List.replicate k b, ∀ name,
        Bundle.amount copy name = Bundle.amount b name :=
      List.forall_mem_replicate.2 (.inr fun _ => rfl)
    exact plan?_isSome_of_alike (by decide) (by decide) hfree hvalid halike

/-- **Spreading copies of one bundle is optimal.** Let `m` be the number of nodes in use that cover the
bundle. `strictSpread` places `k` copies exactly when there are no more than `m`. `spread` places them
exactly when nodes can hold them, and then on `min k m` nodes, and no places that can hold them are those
of more nodes. -/
theorem plan?_copies (hfree : FreeNonneg nodes) (hb : Bundle.fault? b = none) (k : Nat) :
    let m := nodes.countP fun n => !n.draining && Bundle.covers n.free b
    let copies := List.replicate k b
    ((plan? nodes copies .strictSpread).isSome ↔ k ≤ m)
      ∧ ((plan? nodes copies .spread).isSome ↔ Possible nodes copies .spread)
      ∧ (∀ places, plan? nodes copies .spread = some places →
          Permitted nodes copies .spread places ∧ HasRoom nodes (copies.zip places)
            ∧ places.toFinset.card = min k m)
      ∧ ∀ places, Permitted nodes copies .spread places → HasRoom nodes (copies.zip places) →
          places.toFinset.card ≤ min k m := by
  intro m copies
  have hvalid : ∀ other ∈ copies, Bundle.fault? other = none := List.forall_mem_replicate.2 (.inr hb)
  have hm : (openPlaces nodes (nodes.map fun _ => false) b).card = m := card_openPlaces_unused
  refine ⟨?_, plan?_spread_copies_isSome_iff hfree hb, fun places hplan => ?_,
    fun places hpermitted hroom => ?_⟩
  · rw [← hm]
    exact Plan.each?_strictSpread_copies
  · have hpermitted := plan?_permitted hplan
    refine ⟨hpermitted, plan?_hasRoom hfree hvalid hplan, ?_⟩
    have hnew : newPlaces (nodes.map fun _ => false) places = places.toFinset := by
      refine Finset.filter_true_of_mem fun place hplace => ?_
      obtain ⟨n, hn, -⟩ := hpermitted.inUse place (List.mem_toFinset.1 hplace)
      exact getElem?_unused hn
    rw [← hm, ← hnew]
    exact Plan.each?_spread_copies hplan
  · refine le_min ?_ ?_
    · exact (List.toFinset_card_le places).trans (hpermitted.length.trans List.length_replicate).le
    · rw [← hm]
      refine Finset.card_le_card fun place hplace => mem_openPlaces_unused.2 ?_
      exact canTake_of_copies hfree hb hpermitted hroom (List.mem_toFinset.1 hplace)

/-- Three copies for two nodes, one of which has room for two of them; a third node is draining. -/
theorem plan?_copies_three :
    let cpus (n : Rat) : Bundle Rat := NameMap.empty.insert "CPU" n
    let nodes := [Node.idle "a" (cpus 2) false, Node.idle "b" (cpus 1) false, Node.idle "c" (cpus 4) true]
    let copies := List.replicate 3 (cpus 1)
    plan? nodes copies .strictSpread = none
      ∧ ∃ places, plan? nodes copies .spread = some places ∧ places.toFinset.card = 2 := by
  intro cpus nodes copies
  have hchecks : FreeNonneg nodes ∧ Possible nodes copies .spread :=
    possible_of_checks nodes copies .spread [0, 1, 0] (by decide +kernel) rfl (by decide +kernel) trivial
      (by decide +kernel)
  obtain ⟨hstrict, hspread, hplaces, -⟩ :=
    plan?_copies hchecks.1 (show Bundle.fault? (cpus 1) = none by decide +kernel) 3
  have hm : (nodes.countP fun n => !n.draining && Bundle.covers n.free (cpus 1)) = 2 := by decide +kernel
  rw [hm] at hstrict hplaces
  refine ⟨Option.not_isSome_iff_eq_none.1 fun h => absurd (hstrict.1 h) (by decide), ?_⟩
  obtain ⟨places, hplan⟩ := Option.isSome_iff_exists.1 (hspread.2 hchecks.2)
  exact ⟨places, hplan, (hplaces places hplan).2.2⟩

end Copies

end ActorPlacement
