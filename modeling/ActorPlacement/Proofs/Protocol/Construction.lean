import ActorPlacement.Proofs.Protocol.Resolution

/-!
# Constructing actors

Whatever a scheduler and a backend answer, an attempt to reserve, a resolution and a construction end in one
of a few ways (`Reserving`, `Resolving`, `Constructing`). Who reserved and fails has given back just what it
was granted, and who succeeds keeps it; a handle that was brought along is never touched.
-/

namespace ActorPlacement

open Protocol

variable {Q : Type} [Quantity Q] {A σ : Type}

/-- How an attempt to reserve may end, with what was asked for it. -/
inductive Reserving (spec : PlacementSpec Q) : Calls → Except (Failure Q) (Handle Q) → Prop where
  | refused (failure : Failure Q) : Reserving spec ⟨1, [], [], 0⟩ (.error failure)
  | failed (token : Token) (failure : Failure Q) : Reserving spec ⟨1, [token], [token], 0⟩ (.error failure)
  | ready (token : Token) : Reserving spec ⟨1, [token], [], 0⟩ (.ok ⟨token, spec⟩)

/-- How the resolution of merged options may end. -/
inductive Resolving (cls : ActorClass Q) (options : ActorOptions Q) :
    Calls → Except (Failure Q) (Resolved Q) → Prop where
  | invalid (failure : Failure Q) : Resolving cls options ⟨0, [], [], 0⟩ (.error failure)
  | settled (placed : cls.placement.isSome → options.placementGroup.isSome) :
    Resolving cls options ⟨0, [], [], 0⟩ (.ok ⟨options, false⟩)
  | failed {spec : PlacementSpec Q} {made : Calls} {failure : Failure Q}
      (bare : options.placementGroup = none) (attempt : Reserving spec made (.error failure)) :
    Resolving cls options made (.error failure)
  | reserved {spec : PlacementSpec Q} (token : Token) (bare : options.placementGroup = none)
      (required : cls.placement = some spec) :
    Resolving cls options ⟨1, [token], [], 0⟩
      (.ok ⟨{ options with placementGroup := some ⟨token, spec⟩ }, true⟩)

/-- How the backend may answer who wants an actor with these parameters. -/
inductive Materializing (params : LaunchParams Q) :
    Calls → Except (Failure Q) (BuiltActor Q A) → Prop where
  | failed (failure : Failure Q) : Materializing params ⟨0, [], [], 0⟩ (.error failure)
  | built (built : BuiltActor Q A) (carried : built.params = params) :
    Materializing params ⟨0, [], [], 1⟩ (.ok built)

/-- How building an actor with resolved options may end. -/
inductive Building (resolved : Resolved Q) : Calls → Except (Failure Q) (BuiltActor Q A) → Prop where
  | failed (failure : Failure Q) :
    Building resolved ⟨0, [], (resolved.reservedGroup.map Handle.token).toList, 0⟩ (.error failure)
  | built (built : BuiltActor Q A) (carried : built.params = resolved.options.toLaunchParams) :
    Building resolved ⟨0, [], [], 1⟩ (.ok built)

/-- How the construction of an actor with merged options may end. -/
inductive Constructing (type : ActorType Q A) (options : ActorOptions Q) :
    Calls → Except (Failure Q) (BuiltActor Q A) → Prop where
  | failed (failure : Failure Q) : Constructing type options ⟨0, [], [], 0⟩ (.error failure)
  | refused (failure : Failure Q) (bare : options.placementGroup = none) :
    Constructing type options ⟨1, [], [], 0⟩ (.error failure)
  | cleaned (token : Token) (failure : Failure Q) (bare : options.placementGroup = none) :
    Constructing type options ⟨1, [token], [token], 0⟩ (.error failure)
  | built (built : BuiltActor Q A) (placed : type.cls.placement.isSome → options.placementGroup.isSome)
      (carried : built.params = options.toLaunchParams) :
    Constructing type options ⟨0, [], [], 1⟩ (.ok built)
  | reserved {spec : PlacementSpec Q} (token : Token) (built : BuiltActor Q A)
      (bare : options.placementGroup = none) (required : type.cls.placement = some spec)
      (carried : built.params
        = ActorOptions.toLaunchParams { options with placementGroup := some ⟨token, spec⟩ }) :
    Constructing type options ⟨1, [token], [], 1⟩ (.ok built)

/-! ## Reserving -/

theorem releaseToken_ensures (token : Token) (stage : Stage) :
    (releaseToken token stage : Protocol Q Unit).Ensures fun said _ =>
      calls said = ⟨0, [], [token], 0⟩ := by
  intro answer
  cases answer <;> exact fun _ => rfl

theorem releaseHandle_ensures (group : Option (Handle Q)) :
    (releaseHandle group).Ensures fun said _ =>
      calls said = ⟨0, [], (group.map Handle.token).toList, 0⟩ := by
  cases group with
  | none => rfl
  | some handle => exact releaseToken_ensures handle.token .ready

theorem reserve_ensures (spec : PlacementSpec Q) :
    (reserve spec).Ensures fun said result => Reserving spec (calls said) result := by
  refine (reserve_attempting spec).mono fun said result hattempt => ?_
  cases hattempt with
  | refused error => exact .refused _
  | ready token => exact .ready token
  | late token started answer => cases answer <;> exact .failed token _
  | failed token started error answer => cases answer <;> exact .failed token _

theorem resolve_ensures (cls : ActorClass Q) (overrides : Overrides Q) :
    (resolve cls overrides).Ensures fun said result =>
      Resolving cls (overrides.apply cls.defaults).options (calls said) result := by
  cases hneeds : (overrides.apply cls.defaults).needsGroup cls with
  | false =>
    obtain ⟨result, heq, hsettled⟩ := resolve_of_settled hneeds
    rw [heq]
    cases hsettled with
    | invalid | uncovered => exact .invalid _
    | brought handle required usable carried => exact .settled fun _ => by rw [carried]; rfl
    | free usable requires =>
      refine .settled fun hrequired => ?_
      rw [requires] at hrequired
      cases hrequired
  | true =>
    obtain ⟨-, hbare, spec, hspec⟩ := Overrides.Applied.needsGroup_iff.1 hneeds
    rw [resolve_of_needsGroup hspec hneeds]
    refine Ensures.bind ((reserve_ensures spec).mono fun said result hattempt => ?_)
    show Resolving _ _ (calls (said ++ [])) _
    rw [List.append_nil]
    generalize calls said = made at hattempt ⊢
    cases result with
    | error failure => exact .failed hbare hattempt
    | ok handle =>
      cases hattempt with
      | ready token => exact .reserved token hbare hspec

/-! ## Constructing -/

/-- How a construction goes on when it hears from the backend. -/
def afterMaterialize (resolved : Resolved Q) :
    Except (Failure Q) (BuiltActor Q A) → Protocol Q (Except (Failure Q) (BuiltActor Q A))
  | .ok built => .done (.ok built)
  | .error failure => (releaseHandle resolved.reservedGroup).bind fun _ => .done (.error failure)

/-- How a construction goes on with its options. -/
def afterResolve (type : ActorType Q A) :
    Except (Failure Q) (Resolved Q) → Protocol Q (Except (Failure Q) (BuiltActor Q A))
  | .ok resolved => (materialize type resolved.options.toLaunchParams).bind (afterMaterialize resolved)
  | .error failure => .done (.error failure)

theorem construct_eq (type : ActorType Q A) (overrides : Overrides Q) :
    construct type overrides = .ask .backendUp fun up : Bool =>
      if up then (resolve type.cls overrides).bind (afterResolve type)
      else .done (.error (.backend (.construct type.name))) := by
  refine congrArg (Protocol.ask .backendUp) (funext fun up : Bool => ?_)
  cases up with
  | false => rfl
  | true =>
    refine congrArg (Protocol.bind (resolve type.cls overrides)) (funext fun result => ?_)
    cases result with
    | error failure => rfl
    | ok resolved =>
      refine congrArg (Protocol.bind (materialize type resolved.options.toLaunchParams))
        (funext fun result => ?_)
      cases result <;> rfl

theorem materialize_ensures (type : ActorType Q A) (params : LaunchParams Q) :
    (materialize type params).Ensures fun said result => Materializing params (calls said) result := by
  intro up
  cases up with
  | false => exact .failed _
  | true =>
    cases hstart : type.start params with
    | error failure => exact .failed _
    | ok actor => exact fun number => .built _ rfl

/-- What resolving has reserved is given back if there is no actor to keep it. -/
theorem build_ensures (type : ActorType Q A) (resolved : Resolved Q) :
    ((materialize type resolved.options.toLaunchParams).bind (afterMaterialize resolved)).Ensures
      fun said result => Building resolved (calls said) result := by
  refine Ensures.bind ((materialize_ensures type _).mono fun said result hresult => ?_)
  generalize hsaid : calls said = asked at hresult
  cases hresult with
  | built built carried =>
    show Building resolved (calls (said ++ [])) _
    rw [List.append_nil, hsaid]
    exact .built built carried
  | failed failure =>
    refine Ensures.bind ((releaseHandle_ensures resolved.reservedGroup).mono fun more _ hmore => ?_)
    show Building resolved (calls (said ++ (more ++ []))) _
    rw [List.append_nil, calls_append, hsaid, hmore]
    exact .failed failure

theorem afterResolve_ensures (type : ActorType Q A) {options : ActorOptions Q} {made : Calls}
    {result : Except (Failure Q) (Resolved Q)} (hresolved : Resolving type.cls options made result) :
    (afterResolve type result).Ensures fun said result =>
      Constructing type options (made.andThen (calls said)) result := by
  cases hresolved with
  | invalid failure => exact .failed failure
  | failed bare attempt =>
    cases attempt with
    | refused => exact .refused _ bare
    | failed token => exact .cleaned token _ bare
  | settled placed =>
    refine (build_ensures type ⟨options, false⟩).mono fun said result hbuilt => ?_
    generalize calls said = asked at hbuilt ⊢
    cases hbuilt with
    | failed failure => exact .failed failure
    | built built carried => exact .built built placed carried
  | reserved token bare required =>
    refine (build_ensures type _).mono fun said result hbuilt => ?_
    generalize calls said = asked at hbuilt ⊢
    cases hbuilt with
    | failed failure => exact .cleaned token failure bare
    | built built carried => exact .reserved token built bare required carried

theorem construct_ensures (type : ActorType Q A) (overrides : Overrides Q) :
    (construct type overrides).Ensures fun said result =>
      Constructing type (overrides.apply type.cls.defaults).options (calls said) result := by
  rw [construct_eq]
  intro up
  cases up with
  | false => exact .failed _
  | true =>
    refine Ensures.bind ((resolve_ensures type.cls overrides).mono fun said result hresolved => ?_)
    refine (afterResolve_ensures type hresolved).mono fun more result hresult => ?_
    rw [← calls_append] at hresult
    exact hresult

/-! ## The answers to releases -/

/-- Whether something went wrong. -/
def Failed {ε α : Type} (result : Except ε α) : Prop := ∃ failure, result = .error failure

theorem releaseToken_releasesLast (token : Token) (stage : Stage) :
    (releaseToken token stage : Protocol Q Unit).ReleasesLast fun _ => True := by
  refine ⟨(), trivial, fun answer => ?_⟩
  cases answer <;> exact fun _ => rfl

theorem releaseHandle_releasesLast (group : Option (Handle Q)) :
    (releaseHandle group).ReleasesLast fun _ => True := by
  cases group with
  | none => exact trivial
  | some handle => exact releaseToken_releasesLast handle.token .ready

theorem giveUp_releasesLast (token : Token) (failure : Failure Q) :
    (giveUp token failure).ReleasesLast Failed :=
  (releaseToken_releasesLast token .timedOut).bind (fun _ _ => ⟨_, ⟨failure, rfl⟩, rfl⟩)
    fun _ => trivial

theorem reserve_releasesLast (spec : PlacementSpec Q) : (reserve spec).ReleasesLast Failed := by
  rw [reserve_eq]
  intro answer
  rcases answer with error | token
  · exact fun _ => trivial
  · intro _ started answer
    rcases answer with error | placed
    · exact fun _ => giveUp_releasesLast token (.scheduler error)
    · cases placed with
      | false => exact fun _ => giveUp_releasesLast token (.notReady spec.timeout .timedOut)
      | true => exact fun finished _ => trivial

theorem resolve_releasesLast (cls : ActorClass Q) (overrides : Overrides Q) :
    (resolve cls overrides).ReleasesLast Failed := by
  cases hneeds : (overrides.apply cls.defaults).needsGroup cls with
  | false =>
    obtain ⟨result, heq, -⟩ := resolve_of_settled hneeds
    rw [heq]
    exact trivial
  | true =>
    obtain ⟨-, -, spec, hspec⟩ := Overrides.Applied.needsGroup_iff.1 hneeds
    rw [resolve_of_needsGroup hspec hneeds]
    refine (reserve_releasesLast spec).bind ?_ fun _ => trivial
    rintro _ ⟨failure, rfl⟩
    exact ⟨_, ⟨failure, rfl⟩, rfl⟩

theorem materialize_releasesLast (type : ActorType Q A) (params : LaunchParams Q) :
    (materialize type params).ReleasesLast fun _ => False := by
  intro up
  cases up with
  | false => exact trivial
  | true =>
    cases hstart : type.start params with
    | error failure => exact trivial
    | ok actor => exact fun number => trivial

theorem afterMaterialize_releasesLast (resolved : Resolved Q)
    (result : Except (Failure Q) (BuiltActor Q A)) :
    (afterMaterialize resolved result).ReleasesLast Failed := by
  cases result with
  | ok built => exact trivial
  | error failure =>
    exact (releaseHandle_releasesLast resolved.reservedGroup).bind
      (fun _ _ => ⟨_, ⟨failure, rfl⟩, rfl⟩) fun _ => trivial

theorem construct_releasesLast (type : ActorType Q A) (overrides : Overrides Q) :
    (construct type overrides).ReleasesLast Failed := by
  rw [construct_eq]
  intro up
  cases up with
  | false => exact trivial
  | true =>
    refine (resolve_releasesLast type.cls overrides).bind ?_ fun result => ?_
    · rintro _ ⟨failure, rfl⟩
      exact ⟨_, ⟨failure, rfl⟩, rfl⟩
    · cases result with
      | error failure => exact trivial
      | ok resolved =>
        exact (materialize_releasesLast type _).bind (fun _ h => h.elim)
          (afterMaterialize_releasesLast resolved)

/-! ## What a construction leaves behind -/

/-- Nothing is leaked and nothing is taken from others: who succeeds gave nothing back and carries the
options that were resolved, with what was reserved for them; who fails gave back what was granted, once;
and a handle that was brought along is left alone. -/
structure Tidy (type : ActorType Q A) (options : ActorOptions Q) (made : Calls)
    (result : Except (Failure Q) (BuiltActor Q A)) : Prop where
  once : made.submits ≤ 1
  granted : made.grants.length ≤ made.submits
  kept : ∀ built, result = .ok built → made.releases = [] ∧ made.births = 1 ∧ ∃ group,
    built.params = ActorOptions.toLaunchParams { options with placementGroup := group }
      ∧ (type.cls.placement.isSome → group.isSome)
      ∧ (made.grants = [] ∧ group = options.placementGroup
        ∨ ∃ token, made.grants = [token] ∧ group.map Handle.token = some token
          ∧ group.map Handle.spec = type.cls.placement)
  cleaned : ∀ failure, result = .error failure → made.births = 0
    ∧ ∀ token ∈ made.grants, made.releases = [token]
  own : made.releases ⊆ made.grants
  brought : options.placementGroup.isSome → made.submits = 0 ∧ made.releases = []

theorem Constructing.tidy {type : ActorType Q A} {options : ActorOptions Q} {made : Calls}
    {result : Except (Failure Q) (BuiltActor Q A)} (h : Constructing type options made result) :
    Tidy type options made result where
  once := by cases h <;> simp
  granted := by cases h <;> simp
  kept actor heq := by
    cases h with
    | failed | refused | cleaned => cases heq
    | built built placed carried =>
      cases heq
      exact ⟨rfl, rfl, options.placementGroup, carried, placed, .inl ⟨rfl, rfl⟩⟩
    | reserved token built bare required carried =>
      cases heq
      exact ⟨rfl, rfl, _, carried, fun _ => rfl, .inr ⟨token, rfl, rfl, required.symm⟩⟩
  cleaned failure heq := by
    cases h with
    | failed | refused => exact ⟨rfl, fun token htoken => by cases htoken⟩
    | cleaned token => exact ⟨rfl, fun other hother => by rw [List.mem_singleton.1 hother]⟩
    | built | reserved => cases heq
  own := by cases h <;> simp
  brought hbrought := by
    cases h with
    | failed | built => exact ⟨rfl, rfl⟩
    | refused _ bare | cleaned _ _ bare | reserved _ _ bare =>
      rw [bare] at hbrought
      cases hbrought

/-- **Constructing an actor leaks no reservation and takes none from others**, whatever the scheduler and
the backend answer and however the actor is created and warms up. Without a backend nothing else is asked;
the backend counts one more actor just if there is one; and what a release is answered, or does, makes no
difference to the result. -/
theorem construct_tidy (type : ActorType Q A) (overrides : Overrides Q) (others : Surroundings Q σ)
    (s : σ) (spawned : Nat) :
    let finished := (construct type overrides).run (countingActors others) (s, spawned)
    ((others .backendUp s).1 = false → finished.exchanges = [⟨.backendUp, false⟩]
        ∧ finished.result = .error (.backend (.construct type.name)))
      ∧ Tidy type (overrides.apply type.cls.defaults).options (calls finished.exchanges) finished.result
      ∧ finished.state.2 = spawned + (if finished.result.isOk then 1 else 0)
      ∧ ∀ release, ((construct type overrides).run
          (Surroundings.withReleases (countingActors others) release) (s, spawned)).result
            = finished.result := by
  intro finished
  have htidy : Tidy type (overrides.apply type.cls.defaults).options (calls finished.exchanges)
      finished.result :=
    ((construct_ensures type overrides).run (countingActors others) (s, spawned)).tidy
  have hcount : finished.state.2 = spawned + (calls finished.exchanges).births :=
    births_run others (construct type overrides) s spawned
  refine ⟨fun hdown => ?_, htidy, ?_, fun release => ?_⟩
  · simp only [finished, construct_eq, run, countingActors, hdown]
    exact ⟨rfl, rfl⟩
  · cases hresult : finished.result with
    | ok built => rw [hcount, (htidy.kept built hresult).2.1]; rfl
    | error failure => rw [hcount, (htidy.cleaned failure hresult).1]; rfl
  · exact (construct_releasesLast type overrides).run_eq (countingActors others) release (s, spawned)

/-- A scheduler that grants one token and is deaf to releases, and a backend that runs when it is looked at
for the first time only. -/
def shuttingDown (token : Token) : Surroundings Q Nat
  | .submit _ _, looks => (.ok token, looks)
  | .wait _ _, looks => (.ok true, looks)
  | .release token, looks => (.error (.unknownReservation token), looks)
  | .record _, looks => ((), looks)
  | .clock, looks => ((0 : Nat), looks)
  | .backendUp, looks => (looks == 0, looks + 1)
  | .nextActor, looks => ((0 : Nat), looks)

/-- While the backend runs, the actor keeps what was reserved for it. When the backend is shut down between
reserving and building, the reservation is given back. -/
theorem construct_tidy_probe :
    let unit : Bundle Rat := NameMap.empty.insert "CPU" 1
    let spec : PlacementSpec Rat := ⟨[unit], .pack, .halfMinute, by simp, by decide, by decide +kernel⟩
    let type : ActorType Rat Unit :=
      ⟨"Probe", { ActorClass.standard with placement := some spec }, fun _ => .ok (), .ok⟩
    let running := (construct type NameMap.empty).run (countingActors (obliging ⟨"pg"⟩)) ((), 0)
    let stopped := (construct type NameMap.empty).run (countingActors (shuttingDown ⟨"pg"⟩)) (0, 0)
    (∃ built, running.result = .ok built ∧ (calls running.exchanges).releases = []
        ∧ built.params.placementGroup.map Handle.token = some ⟨"pg"⟩ ∧ running.state.2 = 1)
      ∧ stopped.result = .error (.backend .materialize) ∧ (calls stopped.exchanges).releases = [⟨"pg"⟩]
        ∧ stopped.state.2 = 0 := by
  intro unit spec type running stopped
  constructor
  · obtain ⟨-, htidy, hspawned, -⟩ := construct_tidy type NameMap.empty (obliging ⟨"pg"⟩) () 0
    obtain ⟨built, hresult⟩ : ∃ built, running.result = .ok built := ⟨_, rfl⟩
    have hgrants : (calls running.exchanges).grants = [⟨"pg"⟩] := rfl
    obtain ⟨hreleases, -, group, hparams, -, hgroup⟩ := htidy.kept built hresult
    refine ⟨built, hresult, hreleases, ?_, hspawned.trans ?_⟩
    · rcases hgroup with ⟨hnone, -⟩ | ⟨token, hgranted, htoken, -⟩
      · rw [hgrants] at hnone
        cases hnone
      · obtain rfl : ⟨"pg"⟩ = token := List.singleton_inj.1 (hgrants.symm.trans hgranted)
        rw [hparams]
        exact htoken
    · rw [hresult]
      rfl
  · obtain ⟨-, htidy, hspawned, -⟩ := construct_tidy type NameMap.empty (shuttingDown ⟨"pg"⟩) 0 0
    have hresult : stopped.result = .error (.backend .materialize) := rfl
    have hgranted : ⟨"pg"⟩ ∈ (calls stopped.exchanges).grants := List.mem_singleton.2 rfl
    refine ⟨hresult, (htidy.cleaned _ hresult).2 ⟨"pg"⟩ hgranted, hspawned.trans ?_⟩
    rw [hresult]
    rfl

end ActorPlacement
