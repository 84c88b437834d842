import ActorPlacement.Proofs.Planning.Choice
import ActorPlacement.Proofs.Planning.Placement

/-!
# What a plan promises

A plan names a node in use for every bundle, as the strategy demands (`plan?_permitted`), and every
node covers the total of what is planned for it (`plan?_covers`), so that taking the bundles one by
one takes them exactly. A plan is made bundle by bundle, so both go along the list of bundles: what is
left of the nodes after a choice is a list of nodes again (`Board.take_on`).
-/

namespace ActorPlacement

variable {Q : Type} [Quantity Q]

variable {nodes : List (Node Q)} {used : List Bool}

omit [Quantity Q] in
/-- No node is used before anything is planned. -/
theorem getElem?_unused {place : Nat} {n : Node Q} (hn : nodes[place]? = some n) :
    (nodes.map fun _ => false)[place]? = some false := by
  rw [List.getElem?_map, hn]
  rfl

theorem getElem?_set_used {q place : Nat} :
    (used.set q true)[place]? = some false ↔ q ≠ place ∧ used[place]? = some false := by
  rw [List.getElem?_set]
  by_cases h : q = place
  · rw [if_pos h]
    split <;> simp [h]
  · simp [h]

/-- What changes on one node makes no difference to the others. -/
theorem canTake_changeFree_of_ne {f : Bundle Q → Bundle Q} {q place : Nat} (h : q ≠ place) {b : Bundle Q} :
    CanTake (Cluster.changeFree nodes q f) place b ↔ CanTake nodes place b := by
  rw [CanTake, CanTake, getElem?_changeFree, if_neg h]

namespace Plan

variable {strategy : Strategy} {bundles : List (Bundle Q)} {places : List Nat}

theorem Board.take_on (nodes : List (Node Q)) (used : List Bool) (place : Nat) (b : Bundle Q) :
    (Board.on nodes used).take place b
      = Board.on (Cluster.changeFree nodes place (Bundle.subtract · b)) (used.set place true) := by
  have hfield : ∀ {α : Type} (field : Node Q → α), (∀ n free, field { n with free } = field n) →
      (Cluster.changeFree nodes place (Bundle.subtract · b)).map field = nodes.map field :=
    fun field h => map_foldl_changeFree field h Bundle.subtract [(b, place)] nodes
  have hfree : (nodes.map Node.free).modify place (Bundle.subtract · b)
      = (Cluster.changeFree nodes place (Bundle.subtract · b)).map Node.free := by
    refine List.ext_getElem? fun i => ?_
    rw [List.getElem?_modify, List.getElem?_map, List.getElem?_map, getElem?_changeFree]
    by_cases h : place = i <;> cases nodes[i]? <;> simp [h]
  simp only [Board.take, Board.on, hfield Node.capacity fun _ _ => rfl,
    hfield (fun n => !n.draining) fun _ _ => rfl, hfree]

theorem each?_nil_eq_some (board : Board Q) : each? strategy board [] = some places ↔ places = [] := by
  simp [each?, eq_comm]

theorem each?_cons_eq_some (b : Bundle Q) :
    each? strategy (Board.on nodes used) (b :: bundles) = some places
      ↔ ∃ place later, (Board.on nodes used).choose? strategy b = some place
          ∧ each? strategy
              (Board.on (Cluster.changeFree nodes place (Bundle.subtract · b)) (used.set place true))
              bundles = some later
          ∧ places = place :: later := by
  simp only [each?, Option.bind_eq_some_iff, Option.map_eq_some_iff, Board.take_on]
  constructor
  · rintro ⟨place, hplace, later, hlater, rfl⟩
    exact ⟨place, later, hplace, hlater, rfl⟩
  · rintro ⟨place, later, hplace, hlater, rfl⟩
    exact ⟨place, hplace, later, hlater, rfl⟩

/-- A choice for the first bundle and a plan for the others make a plan. -/
theorem each?_cons_isSome {q : Nat} {b : Bundle Q}
    (hchoice : (Board.on nodes used).choose? strategy b = some q)
    (hrest : (each? strategy
      (Board.on (Cluster.changeFree nodes q (Bundle.subtract · b)) (used.set q true)) bundles).isSome) :
    (each? strategy (Board.on nodes used) (b :: bundles)).isSome := by
  obtain ⟨later, hlater⟩ := Option.isSome_iff_exists.1 hrest
  exact Option.isSome_iff_exists.2 ⟨_, (each?_cons_eq_some b).2 ⟨q, later, hchoice, hlater, rfl⟩⟩

theorem each?_length (h : each? strategy (Board.on nodes used) bundles = some places) :
    places.length = bundles.length := by
  induction bundles generalizing nodes used places with
  | nil => rw [(each?_nil_eq_some _).1 h]; rfl
  | cons b rest ih =>
    obtain ⟨place, later, -, hlater, rfl⟩ := (each?_cons_eq_some b).1 h
    rw [List.length_cons, List.length_cons, ih hlater]

theorem each?_inUse (h : each? strategy (Board.on nodes used) bundles = some places) :
    ∀ place ∈ places, ∃ n, nodes[place]? = some n ∧ n.draining = false := by
  induction bundles generalizing nodes used places with
  | nil =>
    rw [(each?_nil_eq_some _).1 h]
    intro place hplace
    cases hplace
  | cons b rest ih =>
    obtain ⟨first, later, hfirst, hlater, rfl⟩ := (each?_cons_eq_some b).1 h
    intro place hplace
    rcases List.mem_cons.1 hplace with rfl | hplace
    · obtain ⟨n, hn, hin, -⟩ := (Board.choose?_sound hfirst).1
      exact ⟨n, hn, hin⟩
    · -- the rest is planned on changed nodes, which are in use when these are
      obtain ⟨n, hn, hin⟩ := ih hlater place hplace
      rw [getElem?_changeFree] at hn
      split at hn
      · obtain ⟨m, hm, rfl⟩ := Option.map_eq_some_iff.1 hn
        exact ⟨m, hm, hin⟩
      · exact ⟨n, hn, hin⟩

/-- `strictSpread` uses no node twice, and none that was used before. -/
theorem each?_strictSpread (h : each? .strictSpread (Board.on nodes used) bundles = some places) :
    places.Nodup ∧ ∀ place ∈ places, used[place]? = some false := by
  induction bundles generalizing nodes used places with
  | nil =>
    rw [(each?_nil_eq_some _).1 h]
    exact ⟨List.nodup_nil, fun place hplace => by cases hplace⟩
  | cons b rest ih =>
    obtain ⟨first, later, hfirst, hlater, rfl⟩ := (each?_cons_eq_some b).1 h
    obtain ⟨hnodup, hunused⟩ := ih hlater
    have hne : ∀ place ∈ later, first ≠ place ∧ used[place]? = some false :=
      fun place hplace => getElem?_set_used.1 (hunused place hplace)
    refine ⟨List.nodup_cons.2 ⟨fun hmem => (hne first hmem).1 rfl, hnodup⟩, ?_⟩
    intro place hplace
    rcases List.mem_cons.1 hplace with rfl | hplace
    · exact (Board.choose?_sound hfirst).2 rfl
    · exact (hne place hplace).2

theorem together?_eq_some_iff :
    together? strategy (Board.on nodes used) bundles = some places
      ↔ ∃ best, ((Board.on nodes used).ranked (Bundle.total bundles)
            (Weights.ofStrategy strategy)).head? = some best
          ∧ places = List.replicate bundles.length best.index := by
  simp [together?, eq_comm]

theorem together?_sound (h : together? strategy (Board.on nodes used) bundles = some places) :
    ∃ place, CanTake nodes place (Bundle.total bundles)
      ∧ places = List.replicate bundles.length place := by
  obtain ⟨best, hbest, rfl⟩ := together?_eq_some_iff.1 h
  exact ⟨best.index, (Board.exists_mem_ranked used _).1 ⟨best, List.mem_of_head? hbest, rfl⟩, rfl⟩

theorem together?_isSome_iff :
    (together? strategy (Board.on nodes used) bundles).isSome
      ↔ ∃ place, CanTake nodes place (Bundle.total bundles) := by
  constructor
  · intro h
    obtain ⟨places, hplaces⟩ := Option.isSome_iff_exists.1 h
    obtain ⟨place, hcan, -⟩ := together?_sound hplaces
    exact ⟨place, hcan⟩
  · rintro ⟨place, hcan⟩
    obtain ⟨s, hs, -⟩ := (Board.exists_mem_ranked used (Weights.ofStrategy strategy)).2 hcan
    rw [together?, Option.isSome_map]
    exact List.isSome_head?.2 (List.ne_nil_of_mem hs)

theorem together?_permitted (h : together? strategy (Board.on nodes used) bundles = some places) :
    Permitted nodes bundles .strictPack places := by
  obtain ⟨place, ⟨n, hn, hin, -⟩, rfl⟩ := together?_sound h
  refine ⟨List.length_replicate, fun p hp => ?_, fun p hp q hq => ?_⟩
  · rw [List.eq_of_mem_replicate hp]
    exact ⟨n, hn, hin⟩
  · rw [List.eq_of_mem_replicate hp, List.eq_of_mem_replicate hq]

theorem each?_permitted (hstrategy : strategy ≠ .strictPack)
    (h : each? strategy (Board.on nodes used) bundles = some places) :
    Permitted nodes bundles strategy places := by
  refine ⟨each?_length h, each?_inUse h, ?_⟩
  cases strategy with
  | strictPack => exact absurd rfl hstrategy
  | strictSpread => exact (each?_strictSpread h).1
  | pack | spread => trivial

end Plan

/-- `pack` plans as `strictPack` does, and falls back to a plan for each bundle in turn. -/
theorem plan?_pack (nodes : List (Node Q)) (bundles : List (Bundle Q)) :
    plan? nodes bundles .pack = (plan? nodes bundles .strictPack).or
      (Plan.each? .pack (Plan.Board.on nodes (nodes.map fun _ => false)) bundles) := by
  simp only [plan?, Option.orElse_eq_orElse, Option.orElse_eq_or]
  rfl

/-- No plan is found where none is for all bundles together, if the strategy packs, and none for each in
turn, if it plans so. -/
theorem plan?_eq_none_iff {nodes : List (Node Q)} {bundles : List (Bundle Q)} {strategy : Strategy} :
    plan? nodes bundles strategy = none
      ↔ (strategy = .strictPack ∨ strategy = .pack → plan? nodes bundles .strictPack = none)
        ∧ (strategy ≠ .strictPack →
          Plan.each? strategy (Plan.Board.ofNodes nodes) bundles = none) := by
  cases strategy with
  | strictPack => simp
  | pack =>
    rw [plan?_pack, Option.or_eq_none_iff]
    simp [Plan.Board.on, Plan.Board.ofNodes]
  | spread | strictSpread => simp [plan?]

/-- A plan is made for all bundles together or for each in turn. -/
theorem plan?_cases {nodes : List (Node Q)} {bundles : List (Bundle Q)} {strategy : Strategy}
    {places : List Nat} (h : plan? nodes bundles strategy = some places) :
    ((strategy = .strictPack ∨ strategy = .pack)
        ∧ Plan.together? strategy (Plan.Board.on nodes (nodes.map fun _ => false)) bundles = some places)
      ∨ (strategy ≠ .strictPack
        ∧ Plan.each? strategy (Plan.Board.on nodes (nodes.map fun _ => false)) bundles = some places) := by
  cases strategy with
  | strictPack => exact .inl ⟨.inl rfl, h⟩
  | pack =>
    rw [plan?_pack] at h
    rcases Option.or_eq_some_iff.1 h with htogether | ⟨-, heach⟩
    · exact .inl ⟨.inr rfl, htogether⟩
    · exact .inr ⟨by decide, heach⟩
  | spread => exact .inr ⟨by decide, h⟩
  | strictSpread => exact .inr ⟨by decide, h⟩

/-- A plan names a node in use for every bundle, as the strategy demands. -/
theorem plan?_permitted {nodes : List (Node Q)} {bundles : List (Bundle Q)} {strategy : Strategy}
    {places : List Nat} (h : plan? nodes bundles strategy = some places) :
    Permitted nodes bundles strategy places := by
  rcases plan?_cases h with ⟨hstrategy, htogether⟩ | ⟨hstrategy, heach⟩
  · obtain ⟨hlength, hinUse, hall⟩ := Plan.together?_permitted htogether
    refine ⟨hlength, hinUse, ?_⟩
    rcases hstrategy with rfl | rfl
    · exact hall
    · trivial
  · exact Plan.each?_permitted hstrategy heach

/-! ## Room -/

section Room

variable {nodes : List (Node Rat)} {used : List Bool} {strategy : Strategy}
  {bundles : List (Bundle Rat)} {places : List Nat}

/-- Bundle by bundle, every node covers the total of what is planned for it. -/
theorem Plan.each?_covers
    (h : Plan.each? strategy (Plan.Board.on nodes used) bundles = some places)
    (hvalid : ∀ b ∈ bundles, Bundle.fault? b = none) {place : Nat} {n : Node Rat}
    (hn : nodes[place]? = some n) :
    Bundle.covers n.free (Bundle.total (bundlesOn (bundles.zip places) place)) = true := by
  induction bundles generalizing nodes used places n with
  | nil => exact Bundle.covers_total_nil n.free
  | cons b rest ih =>
    obtain ⟨first, later, hfirst, hlater, rfl⟩ := (Plan.each?_cons_eq_some b).1 h
    have hb := hvalid b List.mem_cons_self
    have hrest : ∀ other ∈ rest, Bundle.fault? other = none :=
      fun other hother => hvalid other (List.mem_cons_of_mem _ hother)
    have hthere := getElem?_changeFree nodes first place (Bundle.subtract · b)
    rw [List.zip_cons_cons, bundlesOn_cons]
    by_cases hplace : first = place
    · rw [if_pos hplace, hn, Option.map_some] at hthere
      have hleft := ih hlater hrest hthere
      have hcovers := (Plan.Board.choose?_sound hfirst).1.covers (hplace ▸ hn)
      rw [if_pos hplace]
      exact (Bundle.covers_total_cons hb fun other hother =>
        hrest other (mem_of_mem_bundlesOn hother)).2 ⟨hcovers, hleft⟩
    · rw [if_neg hplace, hn] at hthere
      rw [if_neg hplace]
      exact ih hlater hrest hthere

/-- Every node covers the total of what a plan puts on it. -/
theorem plan?_covers (h : plan? nodes bundles strategy = some places)
    (hvalid : ∀ b ∈ bundles, Bundle.fault? b = none) {place : Nat} {n : Node Rat}
    (hn : nodes[place]? = some n) :
    Bundle.covers n.free (Bundle.total (bundlesOn (bundles.zip places) place)) = true := by
  rcases plan?_cases h with ⟨-, htogether⟩ | ⟨-, heach⟩
  · obtain ⟨p, hcan, rfl⟩ := Plan.together?_sound htogether
    rw [bundlesOn_replicate]
    split
    · rename_i hp
      exact hcan.covers (hp ▸ hn)
    · exact Bundle.covers_total_nil n.free
  · exact Plan.each?_covers heach hvalid hn

/-- Taking what is planned leaves exactly the difference: the floor at zero hides nothing. -/
theorem amount_takeAll (h : plan? nodes bundles strategy = some places)
    (hvalid : ∀ b ∈ bundles, Bundle.fault? b = none) {place : Nat} {n : Node Rat}
    (hn : nodes[place]? = some n) (name : String) :
    Bundle.amount ((bundlesOn (bundles.zip places) place).foldl Bundle.subtract n.free) name
      = Bundle.amount n.free name
        - ((bundlesOn (bundles.zip places) place).map (Bundle.amount · name)).sum :=
  Bundle.amount_foldl_subtract (fun b hb => hvalid b (mem_of_mem_bundlesOn hb))
    (plan?_covers h hvalid hn) name

end Room

end ActorPlacement
