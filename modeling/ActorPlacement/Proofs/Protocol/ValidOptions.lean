import ActorPlacement.Proofs.Config.Validation
import ActorPlacement.Proofs.Overrides.Application
import ActorPlacement.Proofs.Protocol.Construction

/-!
# Resolved options are valid

Options are checked when a class is built, and each value when it overrides an option, but what results is not
checked again. It need not be: whatever a value says for an option may stand there (`OptionValue.Says.allows`), so
options stay valid however far overrides are applied, and a reservation that is attached to them is under no
check. Hence a backend sees parameters only that ask for what there can be, whoever answers for the scheduler.
-/

namespace ActorPlacement

open Protocol

variable {Q : Type} [Quantity Q] {A α β σ : Type}

/-! ## Overrides -/

/-- Whatever a value says for an option may stand there. -/
theorem OptionValue.Says.allows {value : OptionValue Q} {key : OptionKey} {content : key.Content Q}
    (h : value.Says key content) : key.Allows content := by
  cases key with
  | numCpus | numGpus => exact h.2
  | resources =>
    rintro bundle rfl
    exact h.2
  | maxConcurrency =>
    rintro rfl
    exact h.2 rfl
  | name | nameSpace | lifetime | placementGroup => exact trivial

namespace Overrides

variable {base options : ActorOptions Q} {said : OptionKey → Option (OptionValue Q)}

/-- What is said leaves valid options valid. -/
theorem Merges.validate (h : Merges said base options) (hbase : base.validate = .ok ()) :
    options.validate = .ok () := by
  rw [ActorOptions.validate_eq_ok] at hbase ⊢
  intro key
  cases hsaid : said key with
  | none =>
    rw [h.others key hsaid]
    exact hbase key
  | some value => exact (h.named key value hsaid).allows

/-- Overrides leave valid options valid, also when they cannot be applied in full. -/
theorem validate_apply (overrides : Overrides Q) (hbase : base.validate = .ok ()) :
    (overrides.apply base).options.validate = .ok () := by
  obtain ⟨said, -, hmerges⟩ := exists_merges overrides base
  exact hmerges.validate hbase

end Overrides

/-! ## Resolving -/

/-- A reservation is under no check. -/
theorem ActorOptions.validate_attach (o : ActorOptions Q) (group : Option (Handle Q)) :
    ({ o with placementGroup := group } : ActorOptions Q).validate = o.validate := rfl

theorem resolve_validate {cls : ActorClass Q} (overrides : Overrides Q) (hcls : cls.defaults.validate = .ok ()) :
    (resolve cls overrides).Ensures fun _ result =>
      ∀ resolved, result = .ok resolved → resolved.options.validate = .ok () := by
  have hvalid := overrides.validate_apply hcls
  refine (resolve_ensures cls overrides).mono fun said result hresult => ?_
  rintro resolved rfl
  generalize calls said = made at hresult
  cases hresult with
  | settled placed => exact hvalid
  | reserved token bare required => rwa [ActorOptions.validate_attach]

/-! ## Constructing -/

/-- What goes on after a protocol matters only for the results that it may have. -/
theorem Protocol.Ensures.bind_congr {p : Protocol Q α} {f g : α → Protocol Q β}
    (h : p.Ensures fun _ result => f result = g result) : p.bind f = p.bind g := by
  induction p with
  | done result => exact h
  | ask request next ih => exact congrArg (Protocol.ask request) (funext fun reply => ih reply (h reply))

/-- Types of actors that differ only in how an actor is created of parameters that are not valid. -/
structure ActorType.AgreesOnValid (type other : ActorType Q A) : Prop where
  name : type.name = other.name
  cls : type.cls = other.cls
  warmUp : type.warmUp = other.warmUp
  create : ∀ params : LaunchParams Q, params.Valid → type.create params = other.create params

variable {type other : ActorType Q A}

theorem ActorType.AgreesOnValid.materialize (h : type.AgreesOnValid other) {params : LaunchParams Q}
    (hparams : params.Valid) : materialize type params = ActorPlacement.materialize other params := by
  have hstart : type.start params = other.start params := by
    rw [ActorType.start, ActorType.start, h.create params hparams, h.warmUp]
  unfold ActorPlacement.materialize
  rw [hstart, h.name]

/-- How an actor is created of parameters that are not valid makes no difference. -/
theorem ActorType.AgreesOnValid.construct (h : type.AgreesOnValid other) (overrides : Overrides Q)
    (hcls : type.cls.defaults.validate = .ok ()) :
    construct type overrides = ActorPlacement.construct other overrides := by
  have hresolve : (resolve type.cls overrides).bind (afterResolve type)
      = (resolve type.cls overrides).bind (afterResolve other) := by
    refine Ensures.bind_congr ((resolve_validate overrides hcls).mono fun said result hresult => ?_)
    cases result with
    | error failure => rfl
    | ok resolved =>
      have hparams := ActorOptions.toLaunchParams_valid (hresult resolved rfl)
      rw [afterResolve, afterResolve, h.materialize hparams]
  rw [construct_eq, construct_eq, hresolve, h.cls, h.name]

/-- **Resolved options are valid**, if the defaults of the class are, as those of every class of a configuration
are, whatever the overrides say and the scheduler answers. Valid options stay valid also when overrides can be
applied in part only. So an actor is created only of parameters that are valid: how it would be created of
others makes no difference. -/
theorem resolved_valid (overrides : Overrides Q) :
    (∀ base : ActorOptions Q, base.validate = .ok () → (overrides.apply base).options.validate = .ok ())
      ∧ ∀ cls : ActorClass Q,
        cls.defaults.validate = .ok () ∨ (∃ (config : Config Q) (name : String), config.class? name = .ok cls) →
          (∀ (answer : Surroundings Q σ) (s : σ) (resolved : Resolved Q),
            ((resolve cls overrides).run answer s).result = .ok resolved → resolved.options.validate = .ok ())
          ∧ ∀ type other : ActorType Q A, type.cls = cls → type.AgreesOnValid other →
            construct type overrides = construct other overrides := by
  refine ⟨fun base hbase => overrides.validate_apply hbase, fun cls hcls => ?_⟩
  have hvalid : cls.defaults.validate = .ok () := by
    rcases hcls with hvalid | ⟨config, name, hclass⟩
    · exact hvalid
    · obtain ⟨declared, timeout, -, -, hbuilt⟩ := Config.class?_eq_ok.1 hclass
      exact ClassSection.validate_of_toClass hbuilt
  refine ⟨fun answer s => (resolve_validate overrides hvalid).run answer s, ?_⟩
  rintro type other rfl hagrees
  exact hagrees.construct overrides hvalid

/-- A class of a configuration, of which one more processor is asked for than its section says: the options
that are resolved are valid, and it does not matter that an actor cannot be created of less than no processors.
Where a limit of zero keeps overrides from being applied in full, the options are valid too. -/
theorem resolved_valid_worker :
    let unit : Bundle Float := NameMap.empty.insert "GPU" 1
    let declared : ClassSection Float :=
      { numCpus := some 2, numGpus := none, maxConcurrency := some 8, name := none, nameSpace := none,
        lifetime := some "detached", resources := none, placement := some ⟨none, some "5s", [unit]⟩ }
    let config : Config Float := ⟨ClusterSection.empty, NameMap.empty.insert "worker" declared⟩
    let overrides : Overrides Float := NameMap.empty.insert "num_cpus" (.whole 3)
    let limited : Overrides Float := NameMap.empty.insert "max_concurrency" (.whole 0)
    let create : LaunchParams Float → Except InitFailure Unit := fun params =>
      if Quantity.atLeast params.numCpus Quantity.zero then .ok () else .error ⟨"Worker", "no processors", none⟩
    ∃ cls resolved, config.class? "worker" = .ok cls
      ∧ ((resolve cls overrides).run (obliging ⟨"pg"⟩) ()).result = .ok resolved
      ∧ resolved.options.validate = .ok ()
      ∧ construct ⟨"Worker", cls, create, .ok⟩ overrides = construct ⟨"Worker", cls, fun _ => .ok (), .ok⟩ overrides
      ∧ (limited.apply ActorOptions.bare).bad.isSome = true
      ∧ (limited.apply (ActorOptions.bare : ActorOptions Float)).options.validate = .ok () := by
  intro unit declared config overrides limited create
  have hruns : ((config.class? "worker").toOption.bind fun cls =>
      ((resolve cls overrides).run (obliging ⟨"pg"⟩) ()).result.toOption).isSome = true := by decide +kernel
  obtain ⟨resolved, hrun⟩ := Option.isSome_iff_exists.1 hruns
  obtain ⟨cls, hclass, hresult⟩ := Option.bind_eq_some_iff.1 hrun
  rw [except_toOption_eq_some] at hclass hresult
  obtain ⟨hoptions, hcreated⟩ :=
    (resolved_valid (A := Unit) (σ := Unit) overrides).2 cls (.inr ⟨config, "worker", hclass⟩)
  have hagrees : ActorType.AgreesOnValid (A := Unit) ⟨"Worker", cls, create, .ok⟩
      ⟨"Worker", cls, fun _ => .ok (), .ok⟩ :=
    ⟨rfl, rfl, rfl, fun params hparams => if_pos hparams.cpus.2⟩
  have hbare : (ActorOptions.bare : ActorOptions Float).validate = .ok () :=
    except_toOption_eq_some.1 (by decide +kernel)
  exact ⟨cls, resolved, hclass, hresult, hoptions _ _ resolved hresult, hcreated _ _ rfl hagrees, by decide +kernel,
    (resolved_valid (A := Unit) (σ := Unit) limited).1 _ hbare⟩

end ActorPlacement
