import ActorPlacement.Proofs.Planning.Soundness
import Mathlib.Data.List.Forall2
import Mathlib.Data.List.Nodup
import Mathlib.Data.List.Zip

/-!
# When a plan is found

A plan chooses a node for one bundle after the other and revises no choice, so it may find nothing where
places exist. It finds some whenever no choice can spoil a later one (`ForgivesChoices`): both inductions
go along the bundles and trade the place that is chosen for the one that a possible assignment has
(`Matched.trade`, `Shared.trade`). Otherwise it gives up exactly where its own choices for some bundles
leave no place for the next one (`Stuck`).
-/

namespace ActorPlacement

/-- Nothing that is free is less than nothing. -/
def FreeNonneg (nodes : List (Node Rat)) : Prop :=
  ∀ (place : Nat) (n : Node Rat), nodes[place]? = some n → ∀ name, 0 ≤ Bundle.amount n.free name

/-- Whether no choice for a bundle takes the place that a later one needs: for `strictSpread` if a node
that can take a bundle can take every later one, for `pack` and `spread` if all bundles ask alike. With
`strictPack` there is one choice only. -/
def ForgivesChoices (nodes : List (Node Rat)) (bundles : List (Bundle Rat)) : Strategy → Prop
  | .strictPack => True
  | .strictSpread => bundles.Pairwise fun b later =>
      ∀ place, CanTake nodes place b → CanTake nodes place later
  | .pack | .spread => ∀ b ∈ bundles, ∀ other ∈ bundles, ∀ name,
      Bundle.amount b name = Bundle.amount other name

section Room

variable {nodes : List (Node Rat)} {bundles : List (Bundle Rat)} {places : List Nat} {place : Nat}

theorem hasRoom_iff_covers (hfree : FreeNonneg nodes) {parts : List (Bundle Rat × Nat)} :
    HasRoom nodes parts ↔ ∀ (place : Nat) (n : Node Rat), nodes[place]? = some n →
      Bundle.covers n.free (Bundle.total (bundlesOn parts place)) = true := by
  refine forall₃_congr fun place n hn => ?_
  rw [Bundle.covers_iff_of_nonneg (hfree place n hn)]
  simp only [Bundle.amount_total]

theorem freeNonneg_of_faultless (h : ∀ n ∈ nodes, Bundle.fault? n.free = none) : FreeNonneg nodes :=
  fun _ n hn name => Bundle.amount_nonneg (h n (List.mem_of_getElem? hn)) name

/-- Parts that pass this check, node by node, have room. -/
theorem hasRoom_of_check (hfree : FreeNonneg nodes) {parts : List (Bundle Rat × Nat)}
    (h : ∀ p ∈ nodes.zipIdx, Bundle.covers p.1.free (Bundle.total (bundlesOn parts p.2)) = true) :
    HasRoom nodes parts :=
  (hasRoom_iff_covers hfree).2 fun place n hn => h (n, place) (List.mem_zipIdx_iff_getElem?.2 hn)

theorem canTake_iff (hfree : FreeNonneg nodes) {b : Bundle Rat} :
    CanTake nodes place b ↔ ∃ n, nodes[place]? = some n ∧ n.draining = false
      ∧ ∀ name, Bundle.amount b name ≤ Bundle.amount n.free name := by
  refine exists_congr fun n => and_congr_right fun hn => and_congr_right fun _ => ?_
  exact Bundle.covers_iff_of_nonneg (hfree place n hn)

/-- Who can take all that is planned for a node can take each bundle of it. -/
theorem canTake_of_hasRoom (hfree : FreeNonneg nodes) (hvalid : ∀ b ∈ bundles, Bundle.fault? b = none)
    {strategy : Strategy} (hpermitted : Permitted nodes bundles strategy places)
    (hroom : HasRoom nodes (bundles.zip places)) {b : Bundle Rat}
    (hb : (b, place) ∈ bundles.zip places) : CanTake nodes place b := by
  obtain ⟨n, hn, hin⟩ := hpermitted.inUse place (List.of_mem_zip hb).2
  have hcovers := (hasRoom_iff_covers hfree).1 hroom place n hn
  have hthere : ∀ other ∈ bundlesOn (bundles.zip places) place, Bundle.fault? other = none :=
    fun other hother => hvalid other (mem_of_mem_bundlesOn hother)
  exact ⟨n, hn, hin, Bundle.covers_of_covers_total hthere hcovers (mem_bundlesOn.2 hb)⟩

/-- Taking a bundle from a node that can take it leaves nothing less than nothing. -/
theorem FreeNonneg.changeFree (hfree : FreeNonneg nodes) {b : Bundle Rat}
    (hcan : CanTake nodes place b) (hb : Bundle.fault? b = none) :
    FreeNonneg (Cluster.changeFree nodes place (Bundle.subtract · b)) := by
  intro i n hn name
  rw [getElem?_changeFree] at hn
  split at hn
  · rename_i hi
    subst hi
    obtain ⟨m, hm, rfl⟩ := Option.map_eq_some_iff.1 hn
    have hcovers := hcan.covers hm
    have hle := (Bundle.covers_iff_of_nonneg (hfree _ m hm)).1 hcovers name
    rw [Bundle.amount_subtract hcovers hb]
    linarith
  · exact hfree i n hn name

end Room

/-! ## One node for all -/

section Together

variable {nodes : List (Node Rat)} {used : List Bool} {strategy : Strategy}
  {bundles : List (Bundle Rat)} {places : List Nat} {place : Nat}

/-- A node that all bundles may lie on can take their total. -/
theorem exists_canTake_total (hfree : FreeNonneg nodes) (hne : bundles ≠ [])
    (hpermitted : Permitted nodes bundles .strictPack places)
    (hroom : HasRoom nodes (bundles.zip places)) :
    ∃ place, CanTake nodes place (Bundle.total bundles) := by
  obtain ⟨place, hplace⟩ : ∃ place, place ∈ places := by
    refine List.exists_mem_of_ne_nil _ fun hnil => hne ?_
    have hlength := hpermitted.length
    rw [hnil] at hlength
    exact List.length_eq_zero_iff.1 hlength.symm
  have hall : places = List.replicate bundles.length place := by
    refine List.eq_replicate_iff.2 ⟨hpermitted.length, fun other hother => ?_⟩
    exact hpermitted.allowed other hother place hplace
  obtain ⟨n, hn, hin⟩ := hpermitted.inUse place hplace
  have hcovers := (hasRoom_iff_covers hfree).1 hroom place n hn
  rw [hall, bundlesOn_replicate, if_pos rfl] at hcovers
  exact ⟨place, n, hn, hin, hcovers⟩

end Together

/-! ## A node for each -/

section Apart

variable {nodes : List (Node Rat)} {used : List Bool} {b : Bundle Rat} {bundles : List (Bundle Rat)}
  {p q : Nat} {places : List Nat}

/-- Some bundles may lie in some places: on distinct nodes that are not used, each of which can take its
bundle. -/
structure Matched (nodes : List (Node Rat)) (used : List Bool) (places : List Nat)
    (bundles : List (Bundle Rat)) : Prop where
  fits : List.Forall₂ (fun place b => CanTake nodes place b ∧ used[place]? = some false) places bundles
  distinct : places.Nodup

/-- Every unused node that can take a bundle can take the later ones. -/
def Nested (nodes : List (Node Rat)) (used : List Bool) (bundles : List (Bundle Rat)) : Prop :=
  bundles.Pairwise fun b later =>
    ∀ place, used[place]? = some false → CanTake nodes place b → CanTake nodes place later

/-- On the nodes that a choice leaves the later bundles are nested as they were. -/
theorem Nested.tail (h : Nested nodes used (b :: bundles)) (q : Nat) :
    Nested (Cluster.changeFree nodes q (Bundle.subtract · b)) (used.set q true) bundles := by
  refine (List.pairwise_cons.1 h).2.imp fun hnested place hplace hcan => ?_
  obtain ⟨hne, hunused⟩ := getElem?_set_used.1 hplace
  rw [canTake_changeFree_of_ne hne] at hcan ⊢
  exact hnested place hunused hcan

/-- If another place is chosen for the first of nested bundles, the place that it gives up takes over what
was meant for the chosen one. -/
theorem Matched.trade (h : Matched nodes used (p :: places) (b :: bundles))
    (hnested : Nested nodes used (b :: bundles)) (q : Nat) :
    Matched (Cluster.changeFree nodes q (Bundle.subtract · b)) (used.set q true)
      (places.map fun place => if place = q then p else place) bundles := by
  obtain ⟨hnotMem, hdistinct⟩ := List.nodup_cons.1 h.distinct
  obtain ⟨hfirst, hothers⟩ := List.forall₂_cons.1 h.fits
  refine ⟨?_, hdistinct.map_on fun x hx y hy hxy => ?_⟩
  · rw [List.forall₂_map_left_iff]
    refine List.forall₂_iff_zip.2 ⟨hothers.length_eq, fun {place later} hmem => ?_⟩
    obtain ⟨hplace, hlater⟩ := List.of_mem_zip hmem
    obtain ⟨hcan, hunused⟩ := (List.forall₂_iff_zip.1 hothers).2 hmem
    by_cases hchosen : place = q
    · have hne : q ≠ p := fun heq => hnotMem (heq ▸ hchosen ▸ hplace)
      have htakes := (List.pairwise_cons.1 hnested).1 later hlater p hfirst.2 hfirst.1
      rw [if_pos hchosen]
      exact ⟨(canTake_changeFree_of_ne hne).2 htakes, getElem?_set_used.2 ⟨hne, hfirst.2⟩⟩
    · rw [if_neg hchosen]
      exact ⟨(canTake_changeFree_of_ne (Ne.symm hchosen)).2 hcan,
        getElem?_set_used.2 ⟨Ne.symm hchosen, hunused⟩⟩
  · -- only the chosen place is given up, and for one that no other bundle has
    split at hxy <;> split at hxy
    · simp_all
    · exact absurd (hxy ▸ hy) hnotMem
    · exact absurd (hxy ▸ hx) hnotMem
    · exact hxy

/-- Nested bundles are planned for distinct nodes where they may lie on some. -/
theorem Plan.each?_isSome_of_nested (hmatched : Matched nodes used places bundles)
    (hnested : Nested nodes used bundles) :
    (Plan.each? .strictSpread (Plan.Board.on nodes used) bundles).isSome := by
  induction bundles generalizing nodes used places with
  | nil => rfl
  | cons b rest ih =>
    cases places with
    | nil => cases hmatched.fits
    | cons p ps =>
      obtain ⟨⟨hcan, hunused⟩, -⟩ := List.forall₂_cons.1 hmatched.fits
      have hchoice : ((Plan.Board.on nodes used).choose? .strictSpread b).isSome :=
        Plan.Board.choose?_isSome hcan fun _ => hunused
      obtain ⟨q, hq⟩ := Option.isSome_iff_exists.1 hchoice
      exact Plan.each?_cons_isSome hq (ih (hmatched.trade hnested q) (hnested.tail q))

end Apart

/-! ## Bundles that ask alike -/

section Alike

variable {nodes : List (Node Rat)} {used : List Bool} {strategy : Strategy} {b : Bundle Rat}
  {bundles : List (Bundle Rat)} {p q : Nat} {places : List Nat} {ask : String → Rat}

/-- Of some places one may be left out so that the others use a given place less, if they use it. -/
theorem exists_without (p : Nat) (ps : List Nat) (q : Nat) :
    ∃ others, others.length = ps.length ∧ others ⊆ p :: ps
      ∧ (∀ place, others.count place ≤ (p :: ps).count place)
      ∧ (others.count q + 1 ≤ (p :: ps).count q ∨ others.count q = 0) := by
  by_cases hq : q ∈ p :: ps
  · refine ⟨(p :: ps).erase q, ?_, List.erase_subset, fun place => ?_, .inl ?_⟩
    · rw [List.length_erase_of_mem hq]
      rfl
    · exact List.erase_sublist.count_le place
    · have hpos := List.count_pos_iff.2 hq
      rw [List.count_erase_self]
      omega
  · refine ⟨ps, rfl, List.subset_cons_self _ _, fun place => ?_, .inr ?_⟩
    · exact (List.sublist_cons_self p ps).count_le place
    · exact List.count_eq_zero.2 fun hmem => hq (List.mem_cons_of_mem _ hmem)

/-- Where bundles ask alike only the numbers of bundles on the nodes matter. -/
theorem sum_bundlesOn_alike (halike : ∀ b ∈ bundles, ∀ name, Bundle.amount b name = ask name)
    (hlength : places.length = bundles.length) (place : Nat) (name : String) :
    ((bundlesOn (bundles.zip places) place).map (Bundle.amount · name)).sum
      = places.count place * ask name := by
  induction bundles generalizing places with
  | nil => simp [List.length_eq_zero_iff.1 hlength]
  | cons b rest ih =>
    cases places with
    | nil => cases hlength
    | cons p ps =>
      have hrest := ih (fun other hother => halike other (List.mem_cons_of_mem _ hother))
        (Nat.succ.inj hlength)
      rw [List.zip_cons_cons, bundlesOn_cons, List.count_cons]
      by_cases hp : p = place
      · rw [if_pos hp, List.map_cons, List.sum_cons, hrest, halike b List.mem_cons_self name]
        simp only [hp, beq_self_eq_true, if_true]
        push_cast
        ring
      · simp [hp, hrest]

/-- Where a bundle that asks so much lies in each of some places, nodes in use hold all of them. -/
structure Shared (nodes : List (Node Rat)) (ask : String → Rat) (places : List Nat) : Prop where
  inUse : ∀ place ∈ places, ∃ n, nodes[place]? = some n ∧ n.draining = false
  room : ∀ (place : Nat) (n : Node Rat), nodes[place]? = some n → ∀ name,
    places.count place * ask name ≤ Bundle.amount n.free name

theorem Shared.canTake (h : Shared nodes ask (p :: places)) (hfree : FreeNonneg nodes)
    (hask : ∀ name, 0 ≤ ask name) (hb : ∀ name, Bundle.amount b name = ask name) : CanTake nodes p b := by
  obtain ⟨n, hn, hin⟩ := h.inUse p List.mem_cons_self
  refine (canTake_iff hfree).2 ⟨n, hn, hin, fun name => ?_⟩
  have hle := h.room p n hn name
  have hothers := mul_nonneg (Nat.cast_nonneg (α := Rat) (places.count p)) (hask name)
  rw [List.count_cons_self] at hle
  push_cast at hle
  rw [hb]
  linarith

/-- If any place is chosen for one of these bundles, the others may still lie in as many of the places. -/
theorem Shared.trade (h : Shared nodes ask (p :: places)) (hfree : FreeNonneg nodes)
    (hask : ∀ name, 0 ≤ ask name) (hvalid : Bundle.fault? b = none)
    (hb : ∀ name, Bundle.amount b name = ask name) (hchosen : CanTake nodes q b) :
    ∃ others, others.length = places.length
      ∧ Shared (Cluster.changeFree nodes q (Bundle.subtract · b)) ask others := by
  obtain ⟨others, hlength, hsubset, hcount, hless⟩ := exists_without p places q
  refine ⟨others, hlength, fun place hplace => ?_, fun place n hn name => ?_⟩
  · obtain ⟨n, hn, hin⟩ := h.inUse place (hsubset hplace)
    rw [getElem?_changeFree, hn]
    split
    · exact ⟨_, rfl, hin⟩
    · exact ⟨n, rfl, hin⟩
  · rw [getElem?_changeFree] at hn
    split at hn
    · -- the chosen node holds one bundle more, and one less is to come if any was
      rename_i hplace
      subst hplace
      obtain ⟨m, hm, rfl⟩ := Option.map_eq_some_iff.1 hn
      have hcovers := hchosen.covers hm
      have hle := (Bundle.covers_iff_of_nonneg (hfree _ m hm)).1 hcovers name
      rw [Bundle.amount_subtract hcovers hvalid, hb]
      rw [hb] at hle
      rcases hless with hless | hzero
      · have hmul := mul_le_mul_of_nonneg_right (Nat.cast_le (α := Rat).2 hless) (hask name)
        push_cast at hmul
        have := h.room q m hm name
        linarith
      · rw [hzero, Nat.cast_zero, zero_mul]
        linarith
    · refine le_trans ?_ (h.room place n hn name)
      exact mul_le_mul_of_nonneg_right (Nat.cast_le.2 (hcount place)) (hask name)

/-- Bundles that ask alike are planned where they may lie, if nodes may be used again. -/
theorem Plan.each?_isSome_of_alike (hstrategy : strategy ≠ .strictSpread) (hfree : FreeNonneg nodes)
    (hvalid : ∀ b ∈ bundles, Bundle.fault? b = none)
    (halike : ∀ b ∈ bundles, ∀ name, Bundle.amount b name = ask name)
    (hlength : places.length = bundles.length) (hshared : Shared nodes ask places) :
    (Plan.each? strategy (Plan.Board.on nodes used) bundles).isSome := by
  induction bundles generalizing nodes used places with
  | nil => rfl
  | cons b rest ih =>
    cases places with
    | nil => cases hlength
    | cons p ps =>
      obtain ⟨hb, hrest⟩ := List.forall_mem_cons.1 hvalid
      obtain ⟨hfirst, hothers⟩ := List.forall_mem_cons.1 halike
      have hask : ∀ name, 0 ≤ ask name := fun name => hfirst name ▸ Bundle.amount_nonneg hb name
      have hchoice : ((Plan.Board.on nodes used).choose? strategy b).isSome :=
        Plan.Board.choose?_isSome (hshared.canTake hfree hask hfirst) fun h => absurd h hstrategy
      obtain ⟨q, hq⟩ := Option.isSome_iff_exists.1 hchoice
      have hchosen := (Plan.Board.choose?_sound hq).1
      obtain ⟨others, hcount, hleft⟩ := hshared.trade hfree hask hb hfirst hchosen
      exact Plan.each?_cons_isSome hq (ih (hfree.changeFree hchosen hb) hrest hothers
        (hcount.trans (Nat.succ.inj hlength)) hleft)

end Alike

/-! ## Where a plan gives up -/

section GivesUp

variable {Q : Type} [Quantity Q] {nodes : List (Node Q)} {used : List Bool} {strategy : Strategy}
  {bundles early late : List (Bundle Q)} {places : List Nat}

/-- What a plan uses once it has chosen some places. -/
def usedAfter (used : List Bool) (places : List Nat) : List Bool :=
  places.foldl (fun used place => used.set place true) used

theorem getElem?_usedAfter {place : Nat} (h : place ∉ places) :
    (usedAfter used places)[place]? = used[place]? := by
  induction places generalizing used with
  | nil => rfl
  | cons q rest ih =>
    rw [usedAfter, List.foldl_cons, ← usedAfter, ih fun hmem => h (List.mem_cons_of_mem _ hmem),
      List.getElem?_set_ne]
    rintro rfl
    exact h List.mem_cons_self

namespace Plan

/-- The board on which a plan goes on when it has put some bundles on their places. -/
def Board.after (nodes : List (Node Q)) (used : List Bool) (bundles : List (Bundle Q))
    (places : List Nat) : Board Q :=
  Board.on (Cluster.takeAll nodes (bundles.zip places)) (usedAfter used places)

/-- A plan for some bundles and more is a plan for the first, and one for the others on what it leaves. -/
theorem each?_append_eq_some : each? strategy (Board.on nodes used) (early ++ late) = some places
    ↔ ∃ first rest, each? strategy (Board.on nodes used) early = some first
      ∧ each? strategy (Board.after nodes used early first) late = some rest ∧ places = first ++ rest := by
  induction early generalizing nodes used places with
  | nil =>
    constructor
    · exact fun h => ⟨[], places, rfl, h, rfl⟩
    · rintro ⟨first, rest, hfirst, hrest, rfl⟩
      cases hfirst
      exact hrest
  | cons b early ih =>
    rw [List.cons_append, each?_cons_eq_some]
    constructor
    · rintro ⟨q, later, hq, hlater, rfl⟩
      obtain ⟨first, rest, hfirst, hrest, rfl⟩ := ih.1 hlater
      exact ⟨q :: first, rest, (each?_cons_eq_some b).2 ⟨q, first, hq, hfirst, rfl⟩, hrest, rfl⟩
    · rintro ⟨_, rest, hearly, hrest, rfl⟩
      obtain ⟨q, first, hq, hfirst, rfl⟩ := (each?_cons_eq_some b).1 hearly
      exact ⟨q, first ++ rest, hq, ih.2 ⟨first, rest, hfirst, hrest, rfl⟩, rfl⟩

/-- A plan for one bundle is a choice. -/
theorem each?_singleton_eq_some (b : Bundle Q) : each? strategy (Board.on nodes used) [b] = some places
    ↔ ∃ q, (Board.on nodes used).choose? strategy b = some q ∧ places = [q] := by
  rw [each?_cons_eq_some]
  constructor
  · rintro ⟨q, later, hq, hlater, rfl⟩
    exact ⟨q, hq, by rw [(each?_nil_eq_some _).1 hlater]⟩
  · rintro ⟨q, hq, rfl⟩
    exact ⟨q, [], hq, rfl, rfl⟩

/-- Bundle by bundle, a plan gives up exactly where there is no choice for a bundle after the choices that
it made for those before. -/
theorem each?_eq_none_iff : each? strategy (Board.on nodes used) bundles = none
    ↔ ∃ early b late places, bundles = early ++ b :: late
      ∧ each? strategy (Board.on nodes used) early = some places
      ∧ (Board.after nodes used early places).choose? strategy b = none := by
  constructor
  · intro h
    induction bundles generalizing nodes used with
    | nil => cases h
    | cons b rest ih =>
      simp only [each?, Board.take_on] at h
      cases hchoice : (Board.on nodes used).choose? strategy b with
      | none => exact ⟨[], b, rest, [], rfl, rfl, hchoice⟩
      | some q =>
        rw [hchoice, Option.bind_some, Option.map_eq_none_iff] at h
        obtain ⟨early, b', late, places, rfl, hplan, hnone⟩ := ih h
        exact ⟨b :: early, b', late, q :: places, rfl,
          (each?_cons_eq_some b).2 ⟨q, places, hchoice, hplan, rfl⟩, hnone⟩
  · rintro ⟨early, b, late, places, rfl, hplan, hnone⟩
    refine Option.eq_none_iff_forall_ne_some.2 fun all hall => ?_
    obtain ⟨first, rest, hfirst, hrest, -⟩ := each?_append_eq_some.1 hall
    obtain rfl : places = first := Option.some.inj (hplan.symm.trans hfirst)
    obtain ⟨q, -, hq, -⟩ := (each?_cons_eq_some b).1 hrest
    exact Option.some_ne_none q (hq.symm.trans hnone)

end Plan

end GivesUp

section DeadEnds

variable {nodes : List (Node Rat)} {used : List Bool} {strategy : Strategy} {b : Bundle Rat}
  {bundles : List (Bundle Rat)} {places : List Nat}

theorem bundlesOn_append {Q : Type} (parts others : List (Bundle Q × Nat)) (place : Nat) :
    bundlesOn (parts ++ others) place = bundlesOn parts place ++ bundlesOn others place := by
  simp [bundlesOn]

/-- Who can hold one more bundle than was planned can take it on what the plan leaves. -/
theorem canTake_takeAll {place : Nat}
    (hplan : Plan.each? strategy (Plan.Board.on nodes used) bundles = some places)
    (hvalid : ∀ b ∈ bundles, Bundle.fault? b = none)
    (hpermitted : Permitted nodes (bundles ++ [b]) strategy (places ++ [place]))
    (hroom : HasRoom nodes ((bundles ++ [b]).zip (places ++ [place]))) :
    CanTake (Cluster.takeAll nodes (bundles.zip places)) place b := by
  obtain ⟨n, hn, hin⟩ := hpermitted.inUse place (List.mem_append_right _ List.mem_cons_self)
  have hcovers := Plan.each?_covers hplan hvalid hn
  rw [CanTake, getElem?_takeAll, hn]
  refine ⟨_, rfl, hin, Bundle.covers_iff.2 fun name _ => ?_⟩
  have hle := hroom place n hn name
  rw [List.zip_append (Plan.each?_length hplan).symm, bundlesOn_append, List.map_append, List.sum_append,
    List.zip_cons_cons, bundlesOn_cons, if_pos rfl] at hle
  rw [Bundle.amount_foldl_subtract (fun other hother => hvalid other (mem_of_mem_bundlesOn hother))
    hcovers name]
  simp only [List.zip_nil_left, bundlesOn_nil, List.map_cons, List.map_nil, List.sum_cons, List.sum_nil,
    add_zero] at hle
  linarith

theorem Plan.each?_hasRoom (hfree : FreeNonneg nodes) (hvalid : ∀ b ∈ bundles, Bundle.fault? b = none)
    (hplan : each? strategy (Board.on nodes used) bundles = some places) :
    HasRoom nodes (bundles.zip places) :=
  (hasRoom_iff_covers hfree).2 fun _ _ hn => each?_covers hplan hvalid hn

/-- After a plan for some bundles there is a choice for one more exactly where its places with one more
are permitted and have room. -/
theorem Plan.choose?_after_isSome_iff (hstrategy : strategy ≠ .strictPack) (hfree : FreeNonneg nodes)
    (hvalid : ∀ other ∈ bundles ++ [b], Bundle.fault? other = none)
    (hplan : each? strategy (Board.ofNodes nodes) bundles = some places) :
    ((Board.after nodes (nodes.map fun _ => false) bundles places).choose? strategy b).isSome
      ↔ ∃ place, Permitted nodes (bundles ++ [b]) strategy (places ++ [place])
          ∧ HasRoom nodes ((bundles ++ [b]).zip (places ++ [place])) := by
  constructor
  · intro hchoice
    obtain ⟨q, hq⟩ := Option.isSome_iff_exists.1 hchoice
    have hall : each? strategy (Board.ofNodes nodes) (bundles ++ [b]) = some (places ++ [q]) :=
      each?_append_eq_some.2 ⟨places, [q], hplan, (each?_singleton_eq_some b).2 ⟨q, hq, rfl⟩, rfl⟩
    exact ⟨q, each?_permitted hstrategy hall, each?_hasRoom hfree hvalid hall⟩
  · rintro ⟨place, hpermitted, hroom⟩
    have hearly : ∀ other ∈ bundles, Bundle.fault? other = none :=
      fun other hother => hvalid other (List.mem_append_left _ hother)
    refine Board.choose?_isSome (canTake_takeAll hplan hearly hpermitted hroom) ?_
    -- only `strictSpread` asks for an unused node, and the next place is new then
    rintro rfl
    have hnodup : (places ++ [place]).Nodup := hpermitted.allowed
    have hnew : place ∉ places :=
      fun hmem => (List.nodup_append.1 hnodup).2.2 place hmem place List.mem_cons_self rfl
    obtain ⟨n, hn, -⟩ := hpermitted.inUse place (List.mem_append_right _ List.mem_cons_self)
    rw [getElem?_usedAfter hnew, getElem?_unused hn]

/-- The places that a plan has chosen for some bundles are permitted and have room, but no place for the next
bundle goes with them. -/
structure Stuck (nodes : List (Node Rat)) (early : List (Bundle Rat)) (places : List Nat) (b : Bundle Rat)
    (strategy : Strategy) : Prop where
  chosen : Plan.each? strategy (Plan.Board.ofNodes nodes) early = some places
  permitted : Permitted nodes early strategy places
  room : HasRoom nodes (early.zip places)
  deadEnd : ∀ place, ¬(Permitted nodes (early ++ [b]) strategy (places ++ [place])
    ∧ HasRoom nodes ((early ++ [b]).zip (places ++ [place])))

/-- Bundle by bundle, no plan is found exactly where one gets stuck. -/
theorem Plan.each?_eq_none_iff_stuck (hstrategy : strategy ≠ .strictPack) (hfree : FreeNonneg nodes)
    (hvalid : ∀ b ∈ bundles, Bundle.fault? b = none) :
    each? strategy (Board.ofNodes nodes) bundles = none
      ↔ ∃ early b late places, bundles = early ++ b :: late ∧ Stuck nodes early places b strategy := by
  have hpart : ∀ {early b late}, bundles = early ++ b :: late →
      ∀ other ∈ early ++ [b], Bundle.fault? other = none := by
    rintro early b late rfl other hother
    rw [List.append_cons] at hvalid
    exact hvalid other (List.mem_append_left late hother)
  refine each?_eq_none_iff.trans ⟨?_, ?_⟩
  · rintro ⟨early, b, late, places, hsplit, hplan, hnone⟩
    have hchoice := choose?_after_isSome_iff hstrategy hfree (hpart hsplit) hplan
    have hearly : ∀ other ∈ early, Bundle.fault? other = none :=
      fun other hother => hpart hsplit other (List.mem_append_left _ hother)
    refine ⟨early, b, late, places, hsplit, hplan, each?_permitted hstrategy hplan,
      each?_hasRoom hfree hearly hplan, fun place h => ?_⟩
    exact Option.not_isSome_iff_eq_none.2 hnone (hchoice.2 ⟨place, h⟩)
  · rintro ⟨early, b, late, places, hsplit, hstuck⟩
    have hchoice := choose?_after_isSome_iff hstrategy hfree (hpart hsplit) hstuck.chosen
    refine ⟨early, b, late, places, hsplit, hstuck.chosen, Option.not_isSome_iff_eq_none.1 fun hsome => ?_⟩
    obtain ⟨place, h⟩ := hchoice.1 hsome
    exact hstuck.deadEnd place h

end DeadEnds

/-! ## The planner -/

/-- There are places that a reservation may have and that can hold it. -/
def Possible (nodes : List (Node Rat)) (bundles : List (Bundle Rat)) (strategy : Strategy) : Prop :=
  ∃ places, Permitted nodes bundles strategy places ∧ HasRoom nodes (bundles.zip places)

section Planner

variable {nodes : List (Node Rat)} {bundles : List (Bundle Rat)} {strategy : Strategy}

/-- No plan puts more on a node than is free there. -/
theorem plan?_hasRoom (hfree : FreeNonneg nodes) (hvalid : ∀ b ∈ bundles, Bundle.fault? b = none)
    {places : List Nat} (h : plan? nodes bundles strategy = some places) :
    HasRoom nodes (bundles.zip places) :=
  (hasRoom_iff_covers hfree).2 fun _ _ hn => plan?_covers h hvalid hn

theorem plan?_isSome_of_together (hstrategy : strategy = .strictPack ∨ strategy = .pack)
    (hfree : FreeNonneg nodes) (hne : bundles ≠ []) (h : Possible nodes bundles .strictPack) :
    (plan? nodes bundles strategy).isSome := by
  obtain ⟨places, hpermitted, hroom⟩ := h
  obtain ⟨place, hcan⟩ := exists_canTake_total hfree hne hpermitted hroom
  rcases hstrategy with rfl | rfl
  · exact Plan.together?_isSome_iff.2 ⟨place, hcan⟩
  · rw [plan?_pack, Option.isSome_or, Bool.or_eq_true]
    exact .inl (Plan.together?_isSome_iff.2 ⟨place, hcan⟩)

theorem plan?_isSome_of_each (hstrategy : strategy ≠ .strictPack)
    (h : (Plan.each? strategy (Plan.Board.on nodes (nodes.map fun _ => false)) bundles).isSome) :
    (plan? nodes bundles strategy).isSome := by
  cases strategy with
  | strictPack => exact absurd rfl hstrategy
  | spread | strictSpread => exact h
  | pack =>
    rw [plan?_pack, Option.isSome_or, Bool.or_eq_true]
    exact .inr h

/-- A plan for bundles that ask alike is found where one is possible, if nodes may be used again. -/
theorem plan?_isSome_of_alike (hpack : strategy ≠ .strictPack) (hspread : strategy ≠ .strictSpread)
    (hfree : FreeNonneg nodes) (hvalid : ∀ b ∈ bundles, Bundle.fault? b = none) {ask : String → Rat}
    (halike : ∀ b ∈ bundles, ∀ name, Bundle.amount b name = ask name)
    (h : Possible nodes bundles strategy) : (plan? nodes bundles strategy).isSome := by
  obtain ⟨places, hpermitted, hroom⟩ := h
  have hshared : Shared nodes ask places := by
    refine ⟨hpermitted.inUse, fun place n hn name => ?_⟩
    rw [← sum_bundlesOn_alike halike hpermitted.length place name]
    exact hroom place n hn name
  exact plan?_isSome_of_each hpack
    (Plan.each?_isSome_of_alike hspread hfree hvalid halike hpermitted.length hshared)

/-- A plan is found where one is possible and no choice can spoil another. -/
theorem plan?_isSome_of_forgiving (hfree : FreeNonneg nodes) (hne : bundles ≠ [])
    (hvalid : ∀ b ∈ bundles, Bundle.fault? b = none) (hforgives : ForgivesChoices nodes bundles strategy)
    (h : Possible nodes bundles strategy) : (plan? nodes bundles strategy).isSome := by
  cases strategy with
  | strictPack => exact plan?_isSome_of_together (.inl rfl) hfree hne h
  | pack | spread =>
    obtain ⟨first, hfirst⟩ := List.exists_mem_of_ne_nil _ hne
    exact plan?_isSome_of_alike (by decide) (by decide) hfree hvalid
      (fun b hb => hforgives b hb first hfirst) h
  | strictSpread =>
    obtain ⟨places, hpermitted, hroom⟩ := h
    have hmatched : Matched nodes (nodes.map fun _ => false) places bundles := by
      refine ⟨List.forall₂_iff_zip.2 ⟨hpermitted.length, fun {place b} hmem => ?_⟩, hpermitted.allowed⟩
      have hmem' : (b, place) ∈ bundles.zip places := by
        rw [← List.zip_swap, List.mem_map]
        exact ⟨(place, b), hmem, rfl⟩
      obtain ⟨n, hn, -⟩ := hpermitted.inUse place (List.of_mem_zip hmem).1
      exact ⟨canTake_of_hasRoom hfree hvalid hpermitted hroom hmem', getElem?_unused hn⟩
    exact plan?_isSome_of_each (by decide)
      (Plan.each?_isSome_of_nested hmatched (hforgives.imp fun hb place _ => hb place))

/-- On one node a plan is found exactly where one is possible. -/
theorem plan?_strictPack_eq_none_iff (hfree : FreeNonneg nodes) (hne : bundles ≠ [])
    (hvalid : ∀ b ∈ bundles, Bundle.fault? b = none) :
    plan? nodes bundles .strictPack = none ↔ ¬Possible nodes bundles .strictPack := by
  rw [← Option.not_isSome_iff_eq_none]
  refine not_congr ⟨fun hsome => ?_, plan?_isSome_of_together (.inl rfl) hfree hne⟩
  obtain ⟨places, hplan⟩ := Option.isSome_iff_exists.1 hsome
  exact ⟨places, plan?_permitted hplan, plan?_hasRoom hfree hvalid hplan⟩

/-- Places that pass these checks make a reservation possible. -/
theorem possible_of_checks (nodes : List (Node Rat)) (bundles : List (Bundle Rat)) (strategy : Strategy)
    (places : List Nat) (hfree : ∀ n ∈ nodes, Bundle.fault? n.free = none)
    (hlength : places.length = bundles.length)
    (hinUse : ∀ place ∈ places, (nodes[place]?).any (fun n => !n.draining) = true)
    (hallowed : strategy.Allows places)
    (hroom : ∀ p ∈ nodes.zipIdx, Bundle.covers p.1.free
      (Bundle.total (bundlesOn (bundles.zip places) p.2)) = true) :
    FreeNonneg nodes ∧ Possible nodes bundles strategy := by
  have hnonneg : FreeNonneg nodes := freeNonneg_of_faultless hfree
  refine ⟨hnonneg, places, ⟨hlength, fun place hplace => ?_, hallowed⟩, hasRoom_of_check hnonneg hroom⟩
  obtain ⟨n, hn, hin⟩ := (Option.any_eq_true _ _).1 (hinUse place hplace)
  exact ⟨n, hn, by simpa using hin⟩

/-- **How far a plan is complete.** What is planned is permitted and has room. A plan is found where one is
possible and no choice can spoil another, or with `pack` where one node can hold all. None is found exactly
where no node can hold all, if the strategy packs, and what the other strategies choose for some bundles
leaves no node for the next. -/
theorem plan?_complete (hfree : FreeNonneg nodes) (hne : bundles ≠ [])
    (hvalid : ∀ b ∈ bundles, Bundle.fault? b = none) :
    (∀ places, plan? nodes bundles strategy = some places →
        Permitted nodes bundles strategy places ∧ HasRoom nodes (bundles.zip places))
      ∧ (Possible nodes bundles strategy →
          ForgivesChoices nodes bundles strategy ∨ strategy = .pack ∧ Possible nodes bundles .strictPack →
          (plan? nodes bundles strategy).isSome)
      ∧ (plan? nodes bundles strategy = none ↔
          (strategy = .strictPack ∨ strategy = .pack → ¬Possible nodes bundles .strictPack)
            ∧ (strategy ≠ .strictPack → ∃ early b late places, bundles = early ++ b :: late
                ∧ Stuck nodes early places b strategy)) := by
  refine ⟨fun places hplan => ⟨plan?_permitted hplan, ?_⟩, fun hpossible hforgives => ?_, ?_⟩
  · exact plan?_hasRoom hfree hvalid hplan
  · rcases hforgives with hforgives | ⟨hpack, htogether⟩
    · exact plan?_isSome_of_forgiving hfree hne hvalid hforgives hpossible
    · exact plan?_isSome_of_together (.inr hpack) hfree hne htogether
  · rw [plan?_eq_none_iff, plan?_strictPack_eq_none_iff hfree hne hvalid]
    exact and_congr_right' (imp_congr_right fun hstrategy =>
      Plan.each?_eq_none_iff_stuck hstrategy hfree hvalid)

/-- Two bundles that ask alike are spread over two nodes. -/
theorem plan?_complete_alike :
    let cpu : Bundle Rat := NameMap.empty.insert "CPU" 1
    (plan? [Node.idle "a" cpu false, Node.idle "b" cpu false] [cpu, cpu] .strictSpread).isSome := by
  intro cpu
  obtain ⟨hfree, hpossible⟩ := possible_of_checks
    [Node.idle "a" cpu false, Node.idle "b" cpu false] [cpu, cpu] .strictSpread [0, 1]
    (by decide +kernel) rfl (by decide +kernel) (show [0, 1].Nodup by decide) (by decide +kernel)
  refine (plan?_complete hfree (by simp) (by decide +kernel)).2.1 hpossible (.inl ?_)
  simp [ForgivesChoices]

-- Had the first bundle been given the larger node, there would be none for the second.
example :
    let cpus (n : Rat) : Bundle Rat := NameMap.empty.insert "CPU" n
    plan? [Node.idle "n1" (cpus 4) false, Node.idle "n2" (cpus 1) false] [cpus 1, cpus 4] .pack
      = some [1, 0] := by
  decide +kernel

/-- A bundle that any node can take is given the only node that the next bundle fits. -/
theorem plan?_none_of_possible :
    let cpu : Bundle Rat := NameMap.empty.insert "CPU" 1
    let both : Bundle Rat := cpu.insert "GPU" 1
    let nodes := [Node.idle "n1" both false, Node.idle "n2" cpu false]
    FreeNonneg nodes ∧ (∀ b ∈ [cpu, both], Bundle.fault? b = none)
      ∧ ∀ strategy ∈ [Strategy.pack, .spread, .strictSpread],
          Possible nodes [cpu, both] strategy ∧ plan? nodes [cpu, both] strategy = none := by
  intro cpu both nodes
  have hpossible : ∀ strategy : Strategy, strategy.Allows [1, 0] →
      FreeNonneg nodes ∧ Possible nodes [cpu, both] strategy := fun strategy hallowed =>
    possible_of_checks nodes [cpu, both] strategy [1, 0] (by decide +kernel) rfl (by decide +kernel)
      hallowed (by decide +kernel)
  refine ⟨(hpossible .pack trivial).1, by decide +kernel, fun strategy hstrategy => ?_⟩
  simp only [List.mem_cons, List.not_mem_nil, or_false] at hstrategy
  rcases hstrategy with rfl | rfl | rfl
  · exact ⟨(hpossible .pack trivial).2, by decide +kernel⟩
  · exact ⟨(hpossible .spread trivial).2, by decide +kernel⟩
  · exact ⟨(hpossible .strictSpread (show [1, 0].Nodup by decide)).2, by decide +kernel⟩

end Planner

end ActorPlacement
