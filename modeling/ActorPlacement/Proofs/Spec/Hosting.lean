import ActorPlacement.Proofs.Planning.Completeness
import ActorPlacement.Proofs.Protocol.Resolution

/-!
# What a reservation can host

Covering looks only at the resources that a demand names and pairs bundles in order as long as there are
two. Between bundles without fault it nevertheless compares all amounts, as a resource that is not named
counts nothing, so it is transitive, and where bundles of one spec lie, the bundles of a spec that it covers
have room: on every node they ask no more than those did, and what was in excess only adds
(`sum_bundlesOn_le`). So a reservation that resolving accepts for a class can host what the class requires.
-/

namespace ActorPlacement

/-! ## Bundles in place of others -/

/-- Between bundles without fault covering compares all amounts. -/
theorem Bundle.covers_iff_of_faultless {held asked : Bundle Rat} (h : fault? held = none) :
    covers held asked = true ↔ ∀ name, amount asked name ≤ amount held name :=
  covers_iff_of_nonneg (amount_nonneg h)

theorem Strategy.Allows.sublist {strategy : Strategy} {places fewer : List Nat}
    (h : strategy.Allows places) (hfewer : fewer.Sublist places) : strategy.Allows fewer := by
  cases strategy with
  | strictPack => exact fun p hp q hq => h p (hfewer.subset hp) q (hfewer.subset hq)
  | strictSpread => exact List.Nodup.sublist hfewer h
  | pack | spread => trivial

/-- Each of some bundles asks no more than the one in the same position of others, which may be more. -/
def AskNoMore (asked held : List (Bundle Rat)) : Prop :=
  ∀ (i : Nat) (b : Bundle Rat), asked[i]? = some b → ∃ other, held[i]? = some other
    ∧ ∀ name, Bundle.amount b name ≤ Bundle.amount other name

theorem AskNoMore.length_le {asked held : List (Bundle Rat)} (h : AskNoMore asked held) :
    asked.length ≤ held.length := by
  by_contra hmore
  -- some bundle is asked for in the first position after the end of `held`
  obtain ⟨other, hother, -⟩ := h held.length _ (List.getElem?_eq_getElem (not_le.1 hmore))
  rw [List.getElem?_eq_none le_rfl] at hother
  cases hother

theorem askNoMore_cons {b : Bundle Rat} {asked held : List (Bundle Rat)} (h : AskNoMore (b :: asked) held) :
    ∃ first rest, held = first :: rest ∧ (∀ name, Bundle.amount b name ≤ Bundle.amount first name)
      ∧ AskNoMore asked rest := by
  obtain ⟨first, hfirst, hle⟩ := h 0 b rfl
  cases held with
  | nil => cases hfirst
  | cons other rest =>
    cases hfirst
    exact ⟨_, rest, rfl, hle, fun i b hb => h (i + 1) b hb⟩

/-- Bundles that ask no more ask no more on every node, if those in excess hold nothing negative. -/
theorem sum_bundlesOn_le {asked held : List (Bundle Rat)} (h : AskNoMore asked held)
    (hheld : ∀ b ∈ held, Bundle.fault? b = none) (places : List Nat) (place : Nat) (name : String) :
    ((bundlesOn (asked.zip (places.take asked.length)) place).map (Bundle.amount · name)).sum
      ≤ ((bundlesOn (held.zip places) place).map (Bundle.amount · name)).sum := by
  induction asked generalizing held places with
  | nil => exact Bundle.sum_amount_nonneg (fun b hb => hheld b (mem_of_mem_bundlesOn hb)) name
  | cons b asked ih =>
    obtain ⟨first, rest, rfl, hle, hothers⟩ := askNoMore_cons h
    cases places with
    | nil => simp
    | cons p places =>
      have hrest := ih hothers (fun other hother => hheld other (List.mem_cons_of_mem _ hother)) places
      rw [List.length_cons, List.take_succ_cons, List.zip_cons_cons, List.zip_cons_cons, bundlesOn_cons,
        bundlesOn_cons]
      split
      · rw [List.map_cons, List.map_cons, List.sum_cons, List.sum_cons]
        exact add_le_add (hle name) hrest
      · exact hrest

/-! ## Specs in place of others -/

namespace PlacementSpec

variable {have_ need : PlacementSpec Rat} {nodes : List (Node Rat)} {places : List Nat}

/-- A spec covers another of the same strategy that asks no more, position by position. -/
theorem covers_iff :
    have_.covers need = true ↔ have_.strategy = need.strategy ∧ AskNoMore need.bundles have_.bundles := by
  simp only [covers, Bool.and_eq_true, beq_iff_eq, decide_eq_true_eq, List.all_eq_true, and_assoc]
  refine and_congr_right fun _ => ⟨?_, fun h => ⟨h.length_le, ?_⟩⟩
  · rintro ⟨hlength, hcovers⟩ i b hb
    have hi : i < have_.bundles.length := (List.getElem?_eq_some_iff.1 hb).1.trans_le hlength
    have hheld : have_.bundles[i]? = some have_.bundles[i] := List.getElem?_eq_getElem hi
    have hpair : (have_.bundles[i], b) ∈ have_.bundles.zip need.bundles :=
      List.mem_of_getElem? (List.getElem?_zip_eq_some.2 ⟨hheld, hb⟩)
    have hfault := have_.fault?_eq_none (List.getElem_mem hi)
    exact ⟨_, hheld, (Bundle.covers_iff_of_faultless hfault).1 (hcovers _ hpair)⟩
  · rintro ⟨held, b⟩ hpair
    obtain ⟨i, hi⟩ := List.mem_iff_getElem?.1 hpair
    obtain ⟨hheld, hb⟩ := List.getElem?_zip_eq_some.1 hi
    obtain ⟨other, hother, hle⟩ := h i b hb
    rw [hheld] at hother
    cases hother
    exact (Bundle.covers_iff_of_faultless (have_.fault?_eq_none (List.mem_of_getElem? hheld))).2 hle

theorem covers_trans {a b c : PlacementSpec Rat} (hab : a.covers b = true) (hbc : b.covers c = true) :
    a.covers c = true := by
  obtain ⟨hstrategy, hmore⟩ := covers_iff.1 hab
  obtain ⟨hstrategy', hmore'⟩ := covers_iff.1 hbc
  refine covers_iff.2 ⟨hstrategy.trans hstrategy', fun i asked hasked => ?_⟩
  obtain ⟨middle, hmiddle, hle'⟩ := hmore' i asked hasked
  obtain ⟨held, hheld, hle⟩ := hmore i middle hmiddle
  exact ⟨held, hheld, fun name => (hle' name).trans (hle name)⟩

/-- Some nodes can host what a spec asks for: each bundle in its place, as the strategy demands, with no
node holding more than is free there. -/
structure Hosted (spec : PlacementSpec Rat) (nodes : List (Node Rat)) (places : List Nat) : Prop where
  length : places.length = spec.bundles.length
  onNodes : ∀ place ∈ places, place < nodes.length
  allowed : spec.strategy.Allows places
  room : HasRoom nodes (spec.bundles.zip places)

/-- Where a spec is hosted, what it covers can be. -/
theorem Hosted.of_covers (h : have_.covers need = true) (hhosted : have_.Hosted nodes places) :
    need.Hosted nodes (places.take need.bundles.length) := by
  obtain ⟨hstrategy, hmore⟩ := covers_iff.1 h
  refine ⟨?_, fun place hplace => ?_, ?_, fun place n hn name => ?_⟩
  · rw [List.length_take, hhosted.length, Nat.min_eq_left hmore.length_le]
  · exact hhosted.onNodes place (List.mem_of_mem_take hplace)
  · exact hstrategy ▸ hhosted.allowed.sublist (List.take_sublist _ _)
  · have hfaultless : ∀ b ∈ have_.bundles, Bundle.fault? b = none := fun _ => have_.fault?_eq_none
    exact (sum_bundlesOn_le hmore hfaultless places place name).trans (hhosted.room place n hn name)

end PlacementSpec

/-! ## Coverage and the resolver -/

/-- **Coverage is sound.** Covering is reflexive and transitive. Where a spec is hosted, the first of its
places host every spec that it covers. So the reservation that a resolution accepts, or makes, for a class
that requires one hosts what the class requires, wherever it is hosted itself. -/
theorem PlacementSpec.covers_sound :
    (∀ spec : PlacementSpec Rat, spec.covers spec = true)
      ∧ (∀ a b c : PlacementSpec Rat, a.covers b = true → b.covers c = true → a.covers c = true)
      ∧ (∀ have_ need : PlacementSpec Rat, have_.covers need = true → ∀ nodes places,
          have_.Hosted nodes places → need.Hosted nodes (places.take need.bundles.length))
      ∧ ∀ (σ : Type) (cls : ActorClass Rat) (overrides : Overrides Rat)
          (answer : Protocol.Surroundings Rat σ) (s : σ) (resolved : Resolved Rat)
          (required : PlacementSpec Rat),
          ((resolve cls overrides).run answer s).result = .ok resolved → cls.placement = some required →
          ∃ handle, resolved.options.placementGroup = some handle ∧ ∀ nodes places,
            handle.spec.Hosted nodes places → required.Hosted nodes (places.take required.bundles.length) := by
  refine ⟨covers_refl, fun a b c => covers_trans, fun _ _ h _ _ => Hosted.of_covers h, ?_⟩
  intro σ cls overrides answer s resolved required h hrequired
  have hattaching := resolve_attaching cls overrides answer s
  obtain ⟨handle, hcarried, hcovers⟩ := hattaching.covering resolved h required hrequired
  exact ⟨handle, hcarried, fun _ _ => Hosted.of_covers hcovers⟩

/-- A node that has a place in a reservation can host what names a resource that the reservation does not,
and asks nothing of it. -/
theorem PlacementSpec.covers_sound_two :
    let cpus (n : Rat) : Bundle Rat := NameMap.empty.insert "CPU" n
    let have_ : PlacementSpec Rat :=
      ⟨[cpus 2, cpus 1], .strictSpread, .halfMinute, by simp, by decide, by decide +kernel⟩
    let need : PlacementSpec Rat :=
      ⟨[(cpus 1).insert "GPU" 0], .strictSpread, .halfMinute, by simp, by decide, by decide +kernel⟩
    have_.covers need = true
      ∧ need.Hosted [Node.idle "a" (cpus 1) false, Node.idle "b" (cpus 2) false] [1] := by
  intro cpus have_ need
  let nodes := [Node.idle "a" (cpus 1) false, Node.idle "b" (cpus 2) false]
  have hcovers : have_.covers need = true := by decide +kernel
  have hfree : FreeNonneg nodes := freeNonneg_of_faultless (by decide +kernel)
  have hroom : HasRoom nodes (have_.bundles.zip [1, 0]) := hasRoom_of_check hfree (by decide +kernel)
  have hhosted : have_.Hosted nodes [1, 0] := ⟨rfl, by decide, show [1, 0].Nodup by decide, hroom⟩
  exact ⟨hcovers, covers_sound.2.2.1 have_ need hcovers nodes _ hhosted⟩

end ActorPlacement
