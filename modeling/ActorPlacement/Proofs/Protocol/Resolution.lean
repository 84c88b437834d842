import ActorPlacement.Proofs.Overrides.Groups
import ActorPlacement.Proofs.Protocol.Attempts
import ActorPlacement.Proofs.Spec.Coverage
import ActorPlacement.Protocol.Resolve

/-!
# What resolving attaches

Resolving reserves in one case only (`Overrides.Applied.needsGroup`): the overrides apply, no reservation was
brought along, and the class requires one. It then is an attempt to reserve what the class requires, whose
failure it passes on; in all other cases it asks nothing of anybody (`Settled`). What it attaches satisfies the
class, also what was just reserved, since a spec covers itself.
-/

namespace ActorPlacement

open Protocol

variable {Q : Type} [Quantity Q] {σ : Type} {cls : ActorClass Q} {overrides : Overrides Q}

/-- Whether merged options lack a reservation that the class requires. -/
def Overrides.Applied.needsGroup (applied : Overrides.Applied Q) (cls : ActorClass Q) : Bool :=
  applied.bad.isNone && applied.options.placementGroup.isNone && cls.placement.isSome

theorem Overrides.Applied.needsGroup_iff {applied : Overrides.Applied Q} : applied.needsGroup cls = true ↔
    applied.bad = none ∧ applied.options.placementGroup = none ∧ ∃ spec, cls.placement = some spec := by
  simp [needsGroup, Option.isSome_iff_exists, and_assoc]

/-- Merged options with the reservation that was made for them. -/
def Overrides.Applied.attach (applied : Overrides.Applied Q) (handle : Handle Q) : Resolved Q :=
  ⟨{ applied.options with placementGroup := some handle }, true⟩

/-- How a resolution ends that does not reserve. -/
inductive Settled (cls : ActorClass Q) (applied : Overrides.Applied Q) :
    Except (Failure Q) (Resolved Q) → Prop where
  | invalid (bad : BadOption Q) (stopped : applied.bad = some bad) :
    Settled cls applied (.error (.option bad))
  | uncovered (handle : Handle Q) (required : PlacementSpec Q)
      (carried : applied.options.placementGroup = some handle) (requires : cls.placement = some required)
      (short : handle.spec.covers required = false) :
    Settled cls applied (.error (.option ⟨OptionKey.placementGroup.text, .notCovering handle required⟩))
  | brought (handle : Handle Q) (required : PlacementSpec Q) (usable : applied.bad = none)
      (carried : applied.options.placementGroup = some handle) (requires : cls.placement = some required)
      (covering : handle.spec.covers required = true) : Settled cls applied (.ok ⟨applied.options, false⟩)
  | free (usable : applied.bad = none) (requires : cls.placement = none) :
    Settled cls applied (.ok ⟨applied.options, false⟩)

/-- Who needs no reservation asks nothing of anybody. -/
theorem resolve_of_settled (h : (overrides.apply cls.defaults).needsGroup cls = false) :
    ∃ result, resolve cls overrides = .done result ∧ Settled cls (overrides.apply cls.defaults) result := by
  simp only [resolve]
  split
  · exact ⟨_, rfl, .invalid _ ‹_›⟩
  · rename_i husable
    split
    · rename_i handle required hgroup hrequired
      split
      · exact ⟨_, rfl, .brought handle required husable hgroup hrequired ‹_›⟩
      · exact ⟨_, rfl, .uncovered handle required hgroup hrequired (Bool.eq_false_iff.2 ‹_›)⟩
    · rename_i spec hgroup hrequired
      simp [Overrides.Applied.needsGroup, husable, hgroup, hrequired] at h
    · exact ⟨_, rfl, .free husable ‹_›⟩

/-- Who needs a reservation attempts to get one, and passes a failure on. -/
theorem resolve_of_needsGroup {spec : PlacementSpec Q} (hspec : cls.placement = some spec)
    (h : (overrides.apply cls.defaults).needsGroup cls = true) :
    resolve cls overrides = (reserve spec).bind fun result =>
      .done (result.map (overrides.apply cls.defaults).attach) := by
  obtain ⟨husable, hbare, -⟩ := Overrides.Applied.needsGroup_iff.1 h
  simp only [resolve, hspec, husable, hbare]
  refine congrArg (Protocol.bind (reserve spec)) (funext fun result => ?_)
  cases result <;> rfl

/-- What a resolution attaches, given what it asked for: when it submits, that what it answers satisfies the
class, and where the reservation comes from. -/
structure Attaching (cls : ActorClass Q) (overrides : Overrides Q) (made : Calls)
    (result : Except (Failure Q) (Resolved Q)) : Prop where
  submits : made.submits = if (overrides.apply cls.defaults).needsGroup cls then 1 else 0
  supplied : overrides.suppliesPlacement = true → made.submits = 0
  covering : ∀ resolved, result = .ok resolved → ∀ required, cls.placement = some required →
    ∃ handle, resolved.options.placementGroup = some handle ∧ handle.spec.covers required = true
  reserved : ∀ resolved, result = .ok resolved → (resolved.reserved = true ↔ made.submits = 1)
  granted : ∀ resolved, result = .ok resolved → resolved.reserved = true →
    ∃ handle, resolved.options.placementGroup = some handle ∧ made.grants = [handle.token]
  kept : ∀ resolved, result = .ok resolved → cls.placement = none →
    resolved.options = (overrides.apply cls.defaults).options

/-- Who brings a reservation along needs none. -/
theorem needsGroup_of_suppliesPlacement (h : overrides.suppliesPlacement = true) (cls : ActorClass Q) :
    (overrides.apply cls.defaults).needsGroup cls = false := by
  cases hbad : (overrides.apply cls.defaults).bad with
  | some bad => simp [Overrides.Applied.needsGroup, hbad]
  | none =>
    obtain ⟨handle, hgroup⟩ := Option.isSome_iff_exists.1 (Overrides.isSome_of_suppliesPlacement h hbad)
    simp [Overrides.Applied.needsGroup, hgroup]

theorem Settled.attaching {result : Except (Failure Q) (Resolved Q)}
    (h : (overrides.apply cls.defaults).needsGroup cls = false)
    (hsettled : Settled cls (overrides.apply cls.defaults) result) :
    Attaching cls overrides (calls ([] : List (Exchange Q))) result where
  submits := by rw [h]; rfl
  supplied _ := rfl
  covering resolved heq required hrequired := by
    cases hsettled with
    | invalid | uncovered => cases heq
    | brought handle other usable carried requires covering =>
      cases heq
      rw [requires] at hrequired
      cases hrequired
      exact ⟨handle, carried, covering⟩
    | free usable requires =>
      rw [requires] at hrequired
      cases hrequired
  reserved resolved heq := by cases hsettled <;> cases heq <;> simp [calls]
  granted resolved heq hreserved := by cases hsettled <;> cases heq <;> cases hreserved
  kept resolved heq _ := by cases hsettled <;> cases heq <;> rfl

theorem Attempting.attaching [ReflexiveQuantity Q] {spec : PlacementSpec Q} {said : List (Exchange Q)}
    {result : Except (Failure Q) (Handle Q)} (hspec : cls.placement = some spec)
    (h : (overrides.apply cls.defaults).needsGroup cls = true) (hattempt : Attempting spec said result) :
    Attaching cls overrides (calls said) (result.map (overrides.apply cls.defaults).attach) where
  submits := by
    rw [h]
    cases hattempt with
    | refused | ready => rfl
    | late token started answer => cases answer <;> rfl
    | failed token started error answer => cases answer <;> rfl
  supplied hsupplied := by
    rw [needsGroup_of_suppliesPlacement hsupplied cls] at h
    cases h
  covering resolved heq required hrequired := by
    rw [hspec] at hrequired
    cases hrequired
    cases hattempt with
    | ready token =>
      cases heq
      exact ⟨⟨token, spec⟩, rfl, spec.covers_refl⟩
    | refused | late | failed => cases heq
  reserved resolved heq := by
    cases hattempt with
    | ready => cases heq; exact iff_of_true rfl rfl
    | refused | late | failed => cases heq
  granted resolved heq _ := by
    cases hattempt with
    | ready token => cases heq; exact ⟨⟨token, spec⟩, rfl, rfl⟩
    | refused | late | failed => cases heq
  kept resolved heq hnone := by
    rw [hspec] at hnone
    cases hnone

/-- Whatever the scheduler answers, a resolution attaches as it should. -/
theorem resolve_attaching [ReflexiveQuantity Q] (cls : ActorClass Q) (overrides : Overrides Q)
    (answer : Surroundings Q σ) (s : σ) :
    let finished := (resolve cls overrides).run answer s
    Attaching cls overrides (calls finished.exchanges) finished.result := by
  intro finished
  cases hneeds : (overrides.apply cls.defaults).needsGroup cls with
  | false =>
    obtain ⟨result, heq, hsettled⟩ := resolve_of_settled hneeds
    simp only [finished, heq]
    exact hsettled.attaching hneeds
  | true =>
    obtain ⟨-, -, spec, hspec⟩ := Overrides.Applied.needsGroup_iff.1 hneeds
    simp only [finished, resolve_of_needsGroup hspec hneeds, run_bind, run, List.append_nil]
    exact ((reserve_attempting spec).run answer s).attaching hspec hneeds

/-- **Resolving attaches only what satisfies the class and reserves only when it must**, whatever the
scheduler answers. It submits once if the overrides apply, the merged options carry no reservation and the
class requires one, and then all that is said and done is the attempt to reserve, whose failure is passed on
unchanged. In all other cases nothing is said or done, and the options and the class settle the answer. -/
theorem resolve_attaches [ReflexiveQuantity Q] (cls : ActorClass Q) (overrides : Overrides Q)
    (answer : Surroundings Q σ) (s : σ) :
    let applied := overrides.apply cls.defaults
    let finished := (resolve cls overrides).run answer s
    Attaching cls overrides (calls finished.exchanges) finished.result
      ∧ (applied.needsGroup cls = false →
          finished.exchanges = [] ∧ finished.state = s ∧ Settled cls applied finished.result)
      ∧ ∀ spec, cls.placement = some spec → applied.needsGroup cls = true →
          let attempt := (reserve spec).run answer s
          finished = ⟨attempt.result.map applied.attach, attempt.state, attempt.exchanges⟩ := by
  intro applied finished
  refine ⟨resolve_attaching cls overrides answer s, fun hneeds => ?_, fun spec hspec hneeds => ?_⟩
  · obtain ⟨result, heq, hsettled⟩ := resolve_of_settled hneeds
    simp only [finished, heq]
    exact ⟨rfl, rfl, hsettled⟩
  · simp only [finished, resolve_of_needsGroup hspec hneeds, run_bind, run, List.append_nil]
    rfl

/-- A scheduler that grants every reservation under one token and at once. -/
def obliging (token : Token) : Surroundings Q Unit
  | .submit _ _, s => (.ok token, s)
  | .wait _ _, s => (.ok true, s)
  | .release _, s => (.ok (), s)
  | .record _, s => ((), s)
  | .clock, s => ((0 : Nat), s)
  | .backendUp, s => (true, s)
  | .nextActor, s => ((1 : Nat), s)

/-- A default handle that the overrides take away is replaced by a new one, whose spec covers the class also
when quantities are doubles. -/
theorem resolve_attaches_unset :
    let unit : Bundle Float := NameMap.empty.insert "GPU" 0.1
    let spec : PlacementSpec Float := ⟨[unit], .pack, .halfMinute, by simp, by decide, by decide +kernel⟩
    let cls : ActorClass Float :=
      ⟨{ ActorOptions.bare with placementGroup := some ⟨⟨"old"⟩, spec⟩ }, some spec⟩
    let overrides : Overrides Float := NameMap.empty.insert OptionKey.placementGroup.text .unset
    let finished := (resolve cls overrides).run (obliging ⟨"new"⟩) ()
    ∃ resolved handle, finished.result = .ok resolved ∧ resolved.options.placementGroup = some handle
      ∧ handle.token = ⟨"new"⟩ ∧ handle.spec.covers spec = true ∧ resolved.reserved = true
      ∧ (calls finished.exchanges).submits = 1 := by
  intro unit spec cls overrides finished
  obtain ⟨hattaching, -⟩ := resolve_attaches cls overrides (obliging ⟨"new"⟩) ()
  have hneeds : (overrides.apply cls.defaults).needsGroup cls = true := rfl
  have hsubmits : (calls finished.exchanges).submits = 1 := by rw [hattaching.submits, if_pos hneeds]
  obtain ⟨resolved, hresult⟩ : ∃ resolved, finished.result = .ok resolved := ⟨_, rfl⟩
  have hreserved := (hattaching.reserved resolved hresult).2 hsubmits
  obtain ⟨handle, hcarried, hcovers⟩ := hattaching.covering resolved hresult spec rfl
  obtain ⟨granted, hgroup, hgrants⟩ := hattaching.granted resolved hresult hreserved
  rw [hcarried] at hgroup
  cases hgroup
  exact ⟨resolved, handle, hresult, hcarried, (List.singleton_inj.1 hgrants).symm, hcovers, hreserved, hsubmits⟩

end ActorPlacement
