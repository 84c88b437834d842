import ActorPlacement.Proofs.Cluster.Conservation
import ActorPlacement.Proofs.Cluster.Frame
import ActorPlacement.Proofs.Config.Validation
import ActorPlacement.Proofs.Overrides.RoundTrip
import ActorPlacement.Proofs.Protocol.Resolution
import ActorPlacement.Protocol.DryRun

/-!
# Dry runs leave nothing behind

A dry run finds a cluster that nobody else uses and gives back all that it was granted: the cluster is left
untouched, or restored after one submission (`Visited`). In a valid configuration only an option or the
reservation can go wrong, and what is shown names a placement group just if the class requires a placement
(`Concluded`), whatever is assigned to the options.
-/

namespace ActorPlacement

open Protocol

/-! ## Restored clusters -/

namespace Cluster

variable {Q : Type} [Quantity Q] {c c' : Cluster Q}

/-- Nothing was done to a cluster, or what was granted is given back. -/
inductive Visited (c : Cluster Q) : Cluster Q → Prop where
  | untouched : Visited c c
  | restored (bundles : List (Bundle Q)) (strategy : Strategy) (token : Token)
      (granted : c.grant? (.submit bundles strategy) = some token) :
    Visited c (c.run [.submit bundles strategy, .release token])

theorem Visited.exists_run (h : Visited c c') : ∃ ops, c' = c.run ops := by
  cases h with
  | untouched => exact ⟨[], rfl⟩
  | restored bundles strategy token => exact ⟨_, rfl⟩

/-- A visit leaves those live who were. -/
theorem Visited.tokens_eq (h : Visited c c') (horderly : Orderly c) : c'.tokens = c.tokens := by
  cases h with
  | untouched => rfl
  | restored bundles strategy token granted =>
    have hnew : token ∉ c.tokens := fun hmem => (granted_new granted).1 (horderly.numbered.subset hmem)
    rw [run_cons, run_cons, run_nil, (horderly.apply _).tokens_apply, horderly.tokens_apply, granted]
    simpa [Operation.released?, grant?, eq_comm] using filter_ne_of_notMem hnew

theorem Visited.map_nodes {α : Type} (field : Node Q → α)
    (hfree : ∀ n free, field { n with free } = field n) (h : Visited c c') :
    c'.nodes.map field = c.nodes.map field := by
  cases h with
  | untouched => rfl
  | restored bundles strategy token =>
    exact (map_nodes_request field hfree _ (.release token) rfl).trans
      (map_nodes_request field hfree c (.submit bundles strategy) rfl)

end Cluster

/-! ## Reserving alone -/

section Alone

variable {Q : Type} [Quantity Q] {c : Cluster Q}

/-- What an attempt to reserve leaves of a cluster with no other clients, and what it answers. -/
inductive ReservingAlone (c : Cluster Q) (spec : PlacementSpec Q) :
    Cluster Q → Except (Failure Q) (Handle Q) → Prop where
  | refused (error : SchedulerError Q) :
    ReservingAlone c spec c (.error (.notReady spec.timeout (.refused error)))
  | late (token : Token) (granted : c.grant? (.submit spec.bundles spec.strategy) = some token) :
    ReservingAlone c spec (c.run [.submit spec.bundles spec.strategy, .release token])
      (.error (.notReady spec.timeout .timedOut))
  | ready (token : Token) (granted : c.grant? (.submit spec.bundles spec.strategy) = some token) :
    ReservingAlone c spec (c.run [.submit spec.bundles spec.strategy]) (.ok ⟨token, spec⟩)

/-- Without other clients an attempt ends in one of three ways, since nobody else releases its token. -/
theorem reserve_alone (h : Cluster.Orderly c) (spec : PlacementSpec Q) :
    let attempt := (reserve spec).run Cluster.answerAlone c
    ReservingAlone c spec attempt.state attempt.result := by
  intro attempt
  cases hrefusal : c.refusal? spec.bundles spec.strategy with
  | some why =>
    have hsubmit := Cluster.submit_of_refused hrefusal
    simp only [attempt, reserve_eq, run, Cluster.answerAlone, hsubmit]
    exact .refused _
  | none =>
    have hgranted : c.grant? (.submit spec.bundles spec.strategy) = some (.numbered (c.issued + 1)) := by
      rw [Cluster.grant?, Cluster.submit_of_accepted hrefusal]
      rfl
    generalize Token.numbered (c.issued + 1) = token at hgranted
    -- what was submitted is there when it is waited for, so the wait answers whether it is ready
    obtain ⟨r, hr, rfl, -⟩ := h.submitted hgranted
    have hlook : (c.apply (.submit spec.bundles spec.strategy)).look r.token = .ok r.ready := by
      rw [Cluster.look, (h.apply _).find?_token hr]
    have hsubmit := Cluster.submit_of_grant?_eq_some hgranted
    have hreply : Except.mapError SchedulerError.rejected (.ok r.token : Except (Refusal Q) Token)
        = .ok r.token := rfl
    simp only [attempt, reserve_eq, run, Cluster.answerAlone, hsubmit, hreply, afterSubmit, hlook]
    cases r.ready with
    | true => exact .ready r.token hgranted
    | false => exact .late r.token hgranted

end Alone

/-! ## What is shown -/

section Shown

variable {Q : Type} [Quantity Q]

namespace LaunchParams

/-- The parameters that are shown name a placement group just if they carry a reservation. -/
theorem isSome_find?_toValue (p : LaunchParams Q) :
    (p.toValue.find? OptionKey.placementGroup.text).isSome = p.placementGroup.isSome := by
  have hfind : p.overrides.find? OptionKey.placementGroup.text = p.said .placementGroup :=
    congrFun p.valueAt_overrides .placementGroup
  rw [toValue_eq, NameMap.find?_map, hfind, said, Option.map_map, Option.isSome_map]

end LaunchParams

end Shown

/-! ## Dry runs -/

section Runs

variable {Q : Type} [WrittenQuantity Q] {config : Config Q} {cls : ActorClass Q} {overrides : Overrides Q}
  {name : String} {c : Cluster Q}

/-- How a dry run for a class may end that was built without a handle: the assignments cannot be read, or
cannot be applied, or the reservation that the class requires is not ready, or else the options are shown,
with the reservation that the cluster grants if the class requires one, and with none if it does not. -/
inductive Concluded (c : Cluster Q) (cls : ActorClass Q) (name : String) (sets : List String) :
    Except (DryRunFailure Q) (NameMap (Tree Q)) → Prop where
  | unread (bad : BadOption Q) (unread : Overrides.assignAll NameMap.empty sets = .error bad) :
    Concluded c cls name sets (.error ⟨.option bad, none⟩)
  | invalid (overrides : Overrides Q) (bad : BadOption Q)
      (read : Overrides.assignAll NameMap.empty sets = .ok overrides)
      (stopped : (overrides.apply cls.defaults).bad = some bad) :
    Concluded c cls name sets (.error ⟨.option bad, some name⟩)
  | notReady (spec : PlacementSpec Q) (reason : NotReady Q) (requires : cls.placement = some spec) :
    Concluded c cls name sets (.error ⟨.notReady spec.timeout reason, some name⟩)
  | shown (overrides : Overrides Q) (group : Option (Handle Q))
      (read : Overrides.assignAll NameMap.empty sets = .ok overrides)
      (usable : (overrides.apply cls.defaults).bad = none)
      (reserved : group.map Handle.spec = cls.placement)
      (granted : ∀ handle ∈ group,
        c.grant? (.submit handle.spec.bundles handle.spec.strategy) = some handle.token) :
    Concluded c cls name sets (.ok (ActorOptions.toLaunchParams
      { (overrides.apply cls.defaults).options with placementGroup := group }).toValue)

/-- What is shown names a placement group just if the class requires a placement. -/
theorem Concluded.isSome_find? {sets : List String} {values : NameMap (Tree Q)}
    (h : Concluded c cls name sets (.ok values)) :
    (values.find? OptionKey.placementGroup.text).isSome = cls.placement.isSome := by
  cases h with
  | shown overrides group read usable reserved granted =>
    rw [LaunchParams.isSome_find?_toValue, ← reserved, Option.isSome_map]
    rfl

/-- How a dry run goes on when its class is resolved. -/
def afterResolution (name : String) :
    Except (Failure Q) (Resolved Q) → Protocol Q (Except (DryRunFailure Q) (NameMap (Tree Q)))
  | .error failure => .done (.error { failure, resolving := some name })
  | .ok resolved => (releaseHandle resolved.options.placementGroup).bind fun _ =>
      .done (.ok resolved.options.toLaunchParams.toValue)

/-- A class that is there is resolved under the assignments, unless these cannot be read. -/
theorem dryRun_eq (hclass : config.class? name = .ok cls) (sets : List String) :
    dryRun config name sets =
      match Overrides.assignAll NameMap.empty sets with
      | .error bad => .done (.error { failure := .option bad })
      | .ok overrides => (resolve cls overrides).bind (afterResolution name) := by
  simp only [dryRun, dryRunParts, hclass]
  cases Overrides.assignAll (Q := Q) NameMap.empty sets with
  | error bad => rfl
  | ok overrides =>
    refine congrArg (Protocol.bind (resolve cls overrides)) (funext fun result => ?_)
    cases result <;> rfl

/-- Resolving a class without a handle and showing what came of it is a visit. -/
theorem resolve_visits (h : Cluster.Orderly c) {sets : List String}
    (hread : Overrides.assignAll NameMap.empty sets = .ok overrides)
    (hbare : (overrides.apply cls.defaults).options.placementGroup = none) (name : String) :
    let finished := ((resolve cls overrides).bind (afterResolution name)).run Cluster.answerAlone c
    c.Visited finished.state ∧ Concluded c cls name sets finished.result := by
  intro finished
  cases hneeds : (overrides.apply cls.defaults).needsGroup cls with
  | false =>
    obtain ⟨result, heq, hsettled⟩ := resolve_of_settled hneeds
    simp only [finished, heq]
    cases hsettled with
    | invalid bad stopped => exact ⟨.untouched, .invalid overrides bad hread stopped⟩
    | uncovered handle required carried | brought handle required usable carried =>
      -- the class has no handle, and assignments bring none
      rw [hbare] at carried
      cases carried
    | free usable requires =>
      simp only [Protocol.bind, afterResolution, hbare]
      refine ⟨.untouched,
        .shown overrides (overrides.apply cls.defaults).options.placementGroup hread usable ?_ ?_⟩
      · rw [hbare, requires, Option.map_none]
      · simp [hbare]
  | true =>
    obtain ⟨husable, -, spec, hspec⟩ := Overrides.Applied.needsGroup_iff.1 hneeds
    have hattempt := reserve_alone h spec
    simp only [finished, resolve_of_needsGroup hspec hneeds, run_bind]
    generalize (reserve spec).run Cluster.answerAlone c = attempt at hattempt ⊢
    obtain ⟨result, state, said⟩ := attempt
    cases hattempt with
    | refused error => exact ⟨.untouched, .notReady spec _ hspec⟩
    | late token granted => exact ⟨.restored _ _ token granted, .notReady spec _ hspec⟩
    | ready token granted =>
      refine ⟨.restored _ _ token granted, .shown overrides (some ⟨token, spec⟩) hread husable hspec.symm ?_⟩
      rintro _ ⟨⟩
      exact granted

/-- Whatever is assigned, a dry run for a class that is there is a visit. -/
theorem dryRun_visits (h : Cluster.Orderly c) (hclass : config.class? name = .ok cls) (sets : List String) :
    let finished := (dryRun config name sets).run Cluster.answerAlone c
    c.Visited finished.state ∧ Concluded c cls name sets finished.result := by
  intro finished
  simp only [finished, dryRun_eq hclass]
  cases hread : Overrides.assignAll (Q := Q) NameMap.empty sets with
  | error bad => exact ⟨.untouched, .unread bad hread⟩
  | ok overrides =>
    obtain ⟨declared, timeout, -, -, hbuilt⟩ := Config.class?_eq_ok.1 hclass
    have hbare : cls.defaults.placementGroup = none := ClassSection.placementGroup_of_toClass hbuilt
    exact resolve_visits h hread
      (Overrides.placementGroup_apply_of_handleless (Overrides.handleless_of_assignAll hread) hbare) name

end Runs

/-! ## What is left behind -/

section Clean

open Cluster

/-- A cluster with the nodes that it had, on which nobody has reserved or waits for anything. -/
structure Vacated (c c' : Cluster Rat) : Prop where
  nodes : c'.nodes.map (fun n => (n.id, n.capacity, n.draining))
    = c.nodes.map fun n => (n.id, n.capacity, n.draining)
  reservations : c'.reservations = []
  pending : c'.pending = []
  free : ∀ n ∈ c'.nodes, ∀ name, Bundle.amount n.free name = Bundle.amount n.capacity name

/-- After a visit a cluster that was just built is vacated. -/
theorem Cluster.Visited.vacated {c c' : Cluster Rat} (h : c.Visited c') (hbuilt : Built c) : Vacated c c' := by
  have hnone : c'.reservations = [] := by
    have htokens := h.tokens_eq hbuilt.unused.orderly
    rw [tokens, tokens, hbuilt.unused.reservations] at htokens
    exact List.map_eq_nil_iff.1 htokens
  have hnodes := h.map_nodes (fun n => (n.id, n.capacity, n.draining)) fun _ _ => rfl
  obtain ⟨ops, rfl⟩ := h.exists_run
  refine ⟨hnodes, hnone, ?_, fun n hn name => ?_⟩
  · rw [pending_run hbuilt, waiting, hnone]
    rfl
  · exact (balanced_run hbuilt ops).free_eq_capacity hnone hn name

/-- **A dry run is clean.** In a valid configuration the cluster is there and so is every declared class, and
whatever is assigned to its options, resolving it ends with launch parameters or with an invalid option or a
reservation that was not ready. The parameters name a placement group just if the class declares a placement,
the one that was granted, and however it ends, the cluster has the nodes that it had, all of them free, and
nobody waits. -/
theorem dryRun_clean {config : Config Rat} {names : List String} {name : String}
    {declared : ClassSection Rat} (hvalid : config.validate = .ok names)
    (hdeclared : config.classes.find? name = some declared) (sets : List String) :
    ∃ c cls, Cluster.ofSection config.cluster = .ok c ∧ config.class? name = .ok cls ∧
      let finished := (dryRun config name sets).run Cluster.answerAlone c
      Concluded c cls name sets finished.result
        ∧ (∀ values, finished.result = .ok values →
            (values.find? OptionKey.placementGroup.text).isSome = declared.placement.isSome)
        ∧ Vacated c finished.state := by
  obtain ⟨hnodes, hclasses, -⟩ := Config.validate_eq_ok.1 hvalid
  obtain ⟨c, hc⟩ : ∃ c, Cluster.ofSection config.cluster = .ok c := by
    rw [Cluster.ofSection, hnodes]
    exact ⟨_, rfl⟩
  have hbuilt : Built c := .ofSection hc
  obtain ⟨cls, hclass⟩ := hclasses name (NameMap.mem_names_of_find? hdeclared)
  obtain ⟨hvisited, hconcluded⟩ := dryRun_visits hbuilt.unused.orderly hclass sets
  refine ⟨c, cls, hc, hclass, hconcluded, fun values hvalues => ?_, hvisited.vacated hbuilt⟩
  obtain ⟨other, timeout, hother, -, hmade⟩ := Config.class?_eq_ok.1 hclass
  rw [hdeclared] at hother
  cases hother
  rw [hvalues] at hconcluded
  rw [hconcluded.isSome_find?, ClassSection.isSome_placement_of_toClass hmade]

/-- Who clears a handle that the class does not have is shown the one that is reserved, and has given it
back. -/
theorem dryRun_clean_unset :
    let amounts (name : String) (q : Rat) : Bundle Rat := NameMap.empty.insert name q
    let placement : PlacementSection Rat := ⟨some "strict_pack", some "500ms", [amounts "GPU" 1]⟩
    let llm : ClassSection Rat := ⟨some 2, none, some 4, none, none, some "detached", none, some placement⟩
    let config : Config Rat :=
      ⟨⟨none, [⟨"gpu-0", false, amounts "GPU" 2⟩]⟩, NameMap.empty.insert "llm" llm⟩
    ∃ c, Cluster.ofSection config.cluster = .ok c ∧
      let finished := (dryRun config "llm" ["placement_group=null"]).run Cluster.answerAlone c
      ∃ values, finished.result = .ok values
        ∧ (values.find? OptionKey.placementGroup.text).isSome = true ∧ Vacated c finished.state := by
  intro amounts placement llm config
  have hvalid : config.validate = .ok ["llm"] := except_toOption_eq_some.1 (by decide +kernel)
  have hdeclared : config.classes.find? "llm" = some llm := NameMap.find?_insert_self _ _ _
  have hok : (Cluster.ofSection config.cluster).toOption.any fun c =>
      ((dryRun config "llm" ["placement_group=null"]).run Cluster.answerAlone c).result.isOk := by
    decide +kernel
  obtain ⟨c, cls, hc, -, -, hnamed, hvacated⟩ := dryRun_clean hvalid hdeclared ["placement_group=null"]
  refine ⟨c, hc, ?_⟩
  rw [hc, Except.toOption, Option.any_some] at hok
  generalize (dryRun config "llm" ["placement_group=null"]).run Cluster.answerAlone c = finished at *
  obtain ⟨result, state, said⟩ := finished
  cases result with
  | ok values => exact ⟨values, rfl, hnamed values rfl, hvacated⟩
  | error failure => cases hok

end Clean

end ActorPlacement
