import ActorPlacement.Proofs.Config.Validation
import ActorPlacement.Proofs.Options.Validity
import ActorPlacement.Proofs.Spec.Coverage
import ActorPlacement.Text.Octets

/-!
# The check of a configuration agrees with its uses

A configuration passes its check just if what is built of it can be built: the cluster of its nodes and every
class. The check looks at the nodes by itself, but finds the same fault that keeps the cluster from being built
(`Config.forM_checkNode`). What is built of a class holds what its section and the cluster's section say
(`ActorClass.BuiltFrom`), whether or not the rest of the configuration is valid.
-/

namespace ActorPlacement

variable {Q : Type} [Quantity Q]

/-! ## Nodes -/

namespace Config

variable {config : Config Q} {section_ : ClusterSection Q}

/-- The check of the nodes ends with the fault of the first that has one. -/
theorem forM_checkNode (section_ : ClusterSection Q) :
    section_.nodes.forM checkNode
      = match badNode? section_ with
        | some fault => .error (.config fault)
        | none => .ok () := by
  unfold badNode?
  -- both walks stop at the first node with a fault
  induction section_.nodes with
  | nil => rfl
  | cons node rest ih =>
    show (checkNode node >>= fun _ => rest.forM checkNode) = _
    rw [ih, List.findSome?_cons]
    unfold checkNode
    cases Bundle.fault? node.resources <;> rfl

/-- A fault of a node is told by the check and by who builds the cluster alike. -/
theorem validate_of_badNode? {fault : ConfigFault Q} (h : badNode? config.cluster = some fault) :
    config.validate = .error (.config fault) ∧ Cluster.ofSection config.cluster = .error (.config fault) := by
  constructor
  · rw [validate, forM_checkNode, h]
    rfl
  · rw [Cluster.ofSection, h]

theorem exists_ofSection_iff : (∃ c, Cluster.ofSection section_ = .ok c) ↔ badNode? section_ = none := by
  unfold Cluster.ofSection
  cases badNode? section_ <;> simp

/-- If some node is faulty, one that is faulty is found. -/
theorem exists_badNode? (h : ∃ node ∈ section_.nodes, ¬Bundle.Valid node.resources) :
    ∃ node ∈ section_.nodes, ∃ fault, Bundle.fault? node.resources = some fault
      ∧ badNode? section_ = some (.badNode node.id fault) := by
  cases hbad : badNode? section_ with
  | none =>
    obtain ⟨node, hnode, hinvalid⟩ := h
    exact absurd (Bundle.fault?_eq_none_iff.1 (badNode?_eq_none.1 hbad node hnode)) hinvalid
  | some found =>
    obtain ⟨node, hnode, hfound⟩ := List.exists_of_findSome?_eq_some hbad
    obtain ⟨fault, hfault, rfl⟩ := Option.map_eq_some_iff.1 hfound
    exact ⟨node, hnode, fault, hfault, rfl⟩

end Config

/-! ## Placements -/

theorem PlacementSpec.eq_of_make {bundles : List (Bundle Q)} {strategy : Strategy} {timeout : Duration}
    {spec : PlacementSpec Q} (h : make bundles strategy timeout = .ok spec) :
    spec.bundles = bundles ∧ spec.strategy = strategy ∧ spec.timeout = timeout := by
  unfold make at h
  split at h
  · cases h
  · split at h
    · cases h
    · split at h
      · cases h
      · cases h
        exact ⟨rfl, rfl, rfl⟩

omit [Quantity Q] in
theorem durationIn_eq_ok {field raw : String} {d : Duration} :
    (durationIn field raw : Except (ConfigFault Q) Duration) = .ok d ↔ Duration.ofText? raw = some d := by
  unfold durationIn
  cases Duration.ofText? raw <;> simp

/-- A spec that a configuration declares: valid bundles as they are written, and time to wait, as the placement
says, else as the cluster says, else half a minute. -/
structure PlacementSpec.BuiltFrom (config : Config Q) (section_ : PlacementSection Q) (spec : PlacementSpec Q) :
    Prop where
  bundles : spec.bundles = section_.bundles
  some_bundle : spec.bundles ≠ []
  valid : ∀ b ∈ spec.bundles, Bundle.Valid b
  positive : 0 < spec.timeout.nanos
  own : ∀ raw, section_.timeout = some raw → Duration.ofText? raw = some spec.timeout
  inherited : section_.timeout = none → ∀ raw, config.cluster.defaultTimeout = some raw →
    Duration.ofText? raw = some spec.timeout
  standard : section_.timeout = none → config.cluster.defaultTimeout = none →
    spec.timeout.nanos = 30 * Duration.second

namespace PlacementSection

variable {config : Config Q} {section_ : PlacementSection Q} {spec : PlacementSpec Q} {fallback timeout : Duration}

/-- The strategy that a placement says, or the default one. -/
def statedStrategy (section_ : PlacementSection Q) : Except (Failure Q) Strategy :=
  section_.strategy.elim (.ok PlacementSpec.defaultStrategy) fun raw =>
    (Strategy.ofText raw).mapError Failure.spec

/-- The time to wait that a placement says, or what else is to be waited. -/
def statedTimeout (section_ : PlacementSection Q) (fallback : Duration) : Except (Failure Q) Duration :=
  section_.timeout.elim (.ok fallback) fun raw => (durationIn "placement.timeout" raw).mapError Failure.config

theorem toSpec_eq (section_ : PlacementSection Q) (fallback : Duration) :
    section_.toSpec fallback = section_.statedStrategy >>= fun strategy =>
      section_.statedTimeout fallback >>= fun timeout =>
        (PlacementSpec.make section_.bundles strategy timeout).mapError Failure.spec := by
  unfold toSpec statedStrategy statedTimeout
  cases section_.strategy <;> cases section_.timeout <;> simp only [Option.elim_none, Option.elim_some]

theorem statedTimeout_of_none (hnone : section_.timeout = none)
    (h : section_.statedTimeout fallback = .ok timeout) : timeout = fallback := by
  rw [statedTimeout, hnone] at h
  cases h
  rfl

theorem statedTimeout_of_some {raw : String} (hraw : section_.timeout = some raw)
    (h : section_.statedTimeout fallback = .ok timeout) : Duration.ofText? raw = some timeout := by
  rw [statedTimeout, hraw, Option.elim_some, except_mapError_eq_ok] at h
  exact durationIn_eq_ok.1 h

theorem builtFrom_of_toSpec (hdefault : config.defaultTimeout = .ok fallback)
    (h : section_.toSpec fallback = .ok spec) : spec.BuiltFrom config section_ := by
  rw [toSpec_eq] at h
  simp only [except_bind_eq_ok, except_mapError_eq_ok] at h
  obtain ⟨strategy, -, timeout, htimeout, hmade⟩ := h
  obtain ⟨hbundles, -, rfl⟩ := PlacementSpec.eq_of_make hmade
  refine ⟨hbundles, spec.bundles_ne_nil, fun b hb => Bundle.fault?_eq_none_iff.1 (spec.fault?_eq_none hb), ?_,
    fun raw hraw => statedTimeout_of_some hraw htimeout, fun hnone raw hraw => ?_, fun hnone hbare => ?_⟩
  · have hpositive := spec.timeout_ne_zero
    simp only [Duration.isZero, beq_eq_false_iff_ne] at hpositive
    omega
  · rw [Config.defaultTimeout, hraw] at hdefault
    rw [statedTimeout_of_none hnone htimeout]
    exact durationIn_eq_ok.1 hdefault
  · rw [Config.defaultTimeout, hbare] at hdefault
    cases hdefault
    rw [statedTimeout_of_none hnone htimeout]
    rfl

end PlacementSection

/-! ## Classes -/

/-- A class that a configuration declares: valid defaults without a reservation, and a placement just if its
section declares one. -/
structure ActorClass.BuiltFrom (config : Config Q) (section_ : ClassSection Q) (cls : ActorClass Q) : Prop where
  valid : cls.defaults.validate = .ok ()
  free : cls.defaults.placementGroup = none
  unplaced : section_.placement = none → cls.placement = none
  placed : ∀ placement, section_.placement = some placement →
    ∃ spec, cls.placement = some spec ∧ spec.BuiltFrom config placement

namespace Config

variable {config : Config Q} {name : String} {cls : ActorClass Q}

theorem builtFrom_of_class? (h : config.class? name = .ok cls) :
    ∃ declared, config.classes.find? name = some declared ∧ cls.BuiltFrom config declared := by
  obtain ⟨declared, timeout, hfind, hdefault, hbuilt⟩ := class?_eq_ok.1 h
  refine ⟨declared, hfind, ClassSection.validate_of_toClass hbuilt, ClassSection.placementGroup_of_toClass hbuilt,
    fun hnone => ?_, fun placement hplacement => ?_⟩
  · have hsome := ClassSection.isSome_placement_of_toClass hbuilt
    rw [hnone] at hsome
    exact Option.isNone_iff_eq_none.1 (Option.isSome_eq_false_iff.1 hsome)
  · obtain ⟨lifetime, required, -, -, hspec, rfl⟩ := ClassSection.toClass_eq_ok.1 hbuilt
    rw [hplacement] at hspec
    obtain ⟨spec, hmade, rfl⟩ := except_map_eq_ok.1 hspec
    exact ⟨spec, rfl, PlacementSection.builtFrom_of_toSpec hdefault hmade⟩

/-- **The check of a configuration agrees with all that uses it.** It passes just if the cluster and every
declared class can be built, and then answers their names in byte order. Every class that can be built is what
its section says. If a node has a fault, the check and who builds the cluster tell the same, of the same node. -/
theorem validate_agrees (config : Config Q) :
    ((∃ names, config.validate = .ok names) ↔ (∃ c, Cluster.ofSection config.cluster = .ok c)
        ∧ ∀ name declared, config.classes.find? name = some declared → ∃ cls, config.class? name = .ok cls)
      ∧ (∀ names, config.validate = .ok names → names.Pairwise (fun a b => octets a < octets b)
        ∧ ∀ name, name ∈ names ↔ ∃ declared, config.classes.find? name = some declared)
      ∧ (∀ name cls, config.class? name = .ok cls →
        ∃ declared, config.classes.find? name = some declared ∧ cls.BuiltFrom config declared)
      ∧ ((∃ node ∈ config.cluster.nodes, ¬Bundle.Valid node.resources) →
        ∃ node ∈ config.cluster.nodes, ∃ fault, Bundle.fault? node.resources = some fault
          ∧ config.validate = .error (.config (.badNode node.id fault))
          ∧ Cluster.ofSection config.cluster = .error (.config (.badNode node.id fault))) := by
  refine ⟨?_, fun names hvalid => ?_, fun name cls => builtFrom_of_class?, fun hbad => ?_⟩
  · rw [exists_ofSection_iff]
    constructor
    · rintro ⟨names, hvalid⟩
      obtain ⟨hnodes, hclasses, -⟩ := validate_eq_ok.1 hvalid
      exact ⟨hnodes, fun name declared hfind => hclasses name (NameMap.mem_names_of_find? hfind)⟩
    · rintro ⟨hnodes, hclasses⟩
      refine ⟨_, validate_eq_ok.2 ⟨hnodes, fun name hname => ?_, rfl⟩⟩
      obtain ⟨declared, hfind⟩ := NameMap.mem_names_iff.1 hname
      exact hclasses name declared hfind
  · obtain ⟨-, -, rfl⟩ := validate_eq_ok.1 hvalid
    refine ⟨(ascending_iff_map_fst.1 config.classes.ascending).imp lt_iff_octets.1, fun name => ?_⟩
    exact NameMap.mem_names_iff
  · obtain ⟨node, hnode, fault, hfault, hfound⟩ := exists_badNode? hbad
    obtain ⟨hvalidate, hcluster⟩ := validate_of_badNode? hfound
    exact ⟨node, hnode, fault, hfault, hvalidate, hcluster⟩

/-- A class that waits as long as the cluster says is built, and listed by the check. A node with a resource
that has no name is told by the check as it is by who builds the cluster. -/
theorem validate_agrees_inherited :
    let amounts (name : String) (q : Float) : Bundle Float := NameMap.empty.insert name q
    let llm : ClassSection Float :=
      ⟨some 2, none, some 4, none, none, some "detached", none, some ⟨none, none, [amounts "GPU" 1]⟩⟩
    let classes : NameMap (ClassSection Float) := NameMap.empty.insert "llm" llm
    let config : Config Float := ⟨⟨some "5s", [⟨"gpu-0", false, amounts "GPU" 2⟩]⟩, classes⟩
    let broken : Config Float := ⟨⟨none, [⟨"gpu-1", true, amounts "" 2⟩]⟩, classes⟩
    (∃ names c, config.validate = .ok names ∧ Cluster.ofSection config.cluster = .ok c ∧ "llm" ∈ names)
      ∧ (∃ cls spec, config.class? "llm" = .ok cls ∧ cls.defaults.validate = .ok () ∧ cls.placement = some spec
        ∧ spec.bundles = [amounts "GPU" 1] ∧ spec.timeout.nanos = 5 * Duration.second)
      ∧ ∃ failure, broken.validate = .error failure ∧ Cluster.ofSection broken.cluster = .error failure := by
  intro amounts llm classes config broken
  obtain ⟨hpasses, hnames, hbuilt, -⟩ := validate_agrees config
  obtain ⟨-, -, -, hbroken⟩ := validate_agrees broken
  have hdeclared : config.classes.find? "llm" = some llm := NameMap.find?_insert_self _ _ _
  refine ⟨?_, ?_, ?_⟩
  · obtain ⟨names, hvalid⟩ : ∃ names, config.validate.toOption = some names :=
      Option.isSome_iff_exists.1 (by decide +kernel)
    rw [except_toOption_eq_some] at hvalid
    obtain ⟨⟨c, hcluster⟩, -⟩ := hpasses.1 ⟨names, hvalid⟩
    exact ⟨names, c, hvalid, hcluster, ((hnames names hvalid).2 "llm").2 ⟨llm, hdeclared⟩⟩
  · obtain ⟨cls, hclass⟩ : ∃ cls, (config.class? "llm").toOption = some cls :=
      Option.isSome_iff_exists.1 (by decide +kernel)
    rw [except_toOption_eq_some] at hclass
    obtain ⟨declared, hfind, hfrom⟩ := hbuilt "llm" cls hclass
    cases hdeclared.symm.trans hfind
    obtain ⟨spec, hspec, hplaced⟩ := hfrom.placed _ rfl
    have hread : (Duration.ofText? "5s").map Duration.nanos = some (5 * Duration.second) := by decide +kernel
    rw [hplaced.inherited rfl "5s" rfl, Option.map_some] at hread
    exact ⟨cls, spec, hclass, hfrom.valid, hspec, hplaced.bundles, Option.some.inj hread⟩
  · have hinvalid : ¬Bundle.Valid (amounts "" 2) := fun hvalid => (hvalid _ (List.mem_singleton.2 rfl)).1 rfl
    obtain ⟨node, -, fault, -, hvalidate, hcluster⟩ := hbroken ⟨_, List.mem_singleton.2 rfl, hinvalid⟩
    exact ⟨_, hvalidate, hcluster⟩

end Config

end ActorPlacement
