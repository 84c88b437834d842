import ActorPlacement.Config.Build
import ActorPlacement.NameMap.Lemmas
import ActorPlacement.Proofs.Results

/-!
# Valid configurations

A configuration is valid just if no node has a fault and every class can be built (`validate_eq_ok`), so the
cluster of a valid configuration and all of its classes are there. A class that was built has valid defaults that
carry no reservation, and requires a placement just if its section declares one.
-/

namespace ActorPlacement

variable {Q : Type} [Quantity Q]

namespace ClassSection

variable {declared : ClassSection Q} {timeout : Duration} {cls : ActorClass Q}

/-- A class is built of the lifetime that its section says, of the defaults if they are valid, and of the
placement if there is one. -/
theorem toClass_eq_ok : declared.toClass timeout = .ok cls ↔
    ∃ lifetime placement, (lifetimeOfSection declared.lifetime : Except (Failure Q) _) = .ok lifetime
      ∧ (declared.defaults lifetime : ActorOptions Q).validate = .ok ()
      ∧ declared.placement.mapM (fun p : PlacementSection Q => p.toSpec timeout) = .ok placement
      ∧ cls = ⟨declared.defaults lifetime, placement⟩ := by
  simp only [toClass, except_bind_eq_ok, except_mapError_eq_ok]
  refine exists_congr fun lifetime => ?_
  cases declared.placement with
  | none =>
    constructor
    · rintro ⟨hlifetime, ⟨⟩, hvalid, ⟨⟩⟩
      exact ⟨none, hlifetime, hvalid, rfl, rfl⟩
    · rintro ⟨_, hlifetime, hvalid, ⟨⟩, rfl⟩
      exact ⟨hlifetime, (), hvalid, rfl⟩
  | some section_ =>
    constructor
    · rintro ⟨hlifetime, ⟨⟩, hvalid, hmade⟩
      obtain ⟨spec, hspec, ⟨⟩⟩ := except_bind_eq_ok.1 hmade
      exact ⟨some spec, hlifetime, hvalid, except_map_eq_ok.2 ⟨spec, hspec, rfl⟩, rfl⟩
    · rintro ⟨_, hlifetime, hvalid, hmade, rfl⟩
      obtain ⟨spec, hspec, rfl⟩ := except_map_eq_ok.1 hmade
      exact ⟨hlifetime, (), hvalid, except_bind_eq_ok.2 ⟨spec, hspec, rfl⟩⟩

/-- The defaults of a class that was built are valid. -/
theorem validate_of_toClass (h : declared.toClass timeout = .ok cls) : cls.defaults.validate = .ok () := by
  obtain ⟨lifetime, placement, -, hvalid, -, rfl⟩ := toClass_eq_ok.1 h
  exact hvalid

/-- The defaults of a class that was built carry no reservation. -/
theorem placementGroup_of_toClass (h : declared.toClass timeout = .ok cls) :
    cls.defaults.placementGroup = none := by
  obtain ⟨lifetime, placement, -, -, -, rfl⟩ := toClass_eq_ok.1 h
  rfl

theorem isSome_placement_of_toClass (h : declared.toClass timeout = .ok cls) :
    cls.placement.isSome = declared.placement.isSome := by
  obtain ⟨lifetime, placement, -, -, hspec, rfl⟩ := toClass_eq_ok.1 h
  cases hdeclared : declared.placement with
  | none =>
    rw [hdeclared] at hspec
    cases hspec
    rfl
  | some section_ =>
    rw [hdeclared] at hspec
    obtain ⟨spec, -, rfl⟩ := except_map_eq_ok.1 hspec
    rfl

end ClassSection

namespace Config

variable {config : Config Q} {names : List String} {name : String} {declared : ClassSection Q}
  {cls : ActorClass Q}

theorem class?_eq_ok : config.class? name = .ok cls ↔
    ∃ declared timeout, config.classes.find? name = some declared
      ∧ config.defaultTimeout = .ok timeout ∧ declared.toClass timeout = .ok cls := by
  simp only [class?]
  cases hfind : config.classes.find? name with
  | none => simp
  | some declared => simp [except_bind_eq_ok, except_mapError_eq_ok]

theorem checkNode_eq_ok {node : NodeSection Q} :
    checkNode node = .ok () ↔ Bundle.fault? node.resources = none := by
  unfold checkNode
  cases Bundle.fault? node.resources <;> simp

theorem badNode?_eq_none {section_ : ClusterSection Q} :
    badNode? section_ = none ↔ ∀ node ∈ section_.nodes, Bundle.fault? node.resources = none := by
  simp [badNode?]

/-- Valid is what has no faulty node and only classes that can be built. -/
theorem validate_eq_ok : config.validate = .ok names ↔
    badNode? config.cluster = none ∧ (∀ name ∈ config.classes.names, ∃ cls, config.class? name = .ok cls)
      ∧ config.classes.names = names := by
  simp only [validate, except_bind_eq_ok]
  constructor
  · rintro ⟨⟨⟩, hnodes, ⟨⟩, hall, ⟨⟩⟩
    refine ⟨badNode?_eq_none.2 fun node hnode => ?_, fun name hname => ?_, rfl⟩
    · exact checkNode_eq_ok.1 (except_forM_eq_ok.1 hnodes node hnode)
    · obtain ⟨cls, hcls, -⟩ := except_map_eq_ok.1 (except_forM_eq_ok.1 hall name hname)
      exact ⟨cls, hcls⟩
  · rintro ⟨hnodes, hall, rfl⟩
    refine ⟨(), except_forM_eq_ok.2 fun node hnode => ?_, (), except_forM_eq_ok.2 fun name hname => ?_, rfl⟩
    · exact checkNode_eq_ok.2 (badNode?_eq_none.1 hnodes node hnode)
    · obtain ⟨cls, hcls⟩ := hall name hname
      exact except_map_eq_ok.2 ⟨cls, hcls, rfl⟩

end Config

end ActorPlacement
