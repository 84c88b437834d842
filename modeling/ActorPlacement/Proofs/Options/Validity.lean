import ActorPlacement.Proofs.Bundle.Amounts
import ActorPlacement.Proofs.Options.Contents
import ActorPlacement.Proofs.Results

/-!
# Valid options

The check of options lets pass just those that hold under every key what may stand there
(`ActorOptions.validate_eq_ok`): quantities that are finite and not negative, resources that are valid, and a
limit that is not zero. Launch parameters made of such options ask only for what there can be.
-/

namespace ActorPlacement

variable {Q : Type} [Quantity Q]

/-! ## Checks -/

theorem checked_eq_ok {α : Type} {fault : Option (OptionFault Q)} {value result : α} :
    checked fault value = .ok result ↔ fault = none ∧ value = result := by
  cases fault <;> simp [checked]

theorem checked_eq_error {α : Type} {fault : Option (OptionFault Q)} {value : α} {found : OptionFault Q} :
    checked fault value = .error found ↔ fault = some found := by
  cases fault <;> simp [checked]

theorem underKey_eq_ok {α : Type} {key : String} {x : Except (OptionFault Q) α} {a : α} :
    underKey key x = .ok a ↔ x = .ok a := by
  cases x <;> simp [underKey]

theorem quantityFault?_eq_none {x : Q} : quantityFault? x = none ↔
    Quantity.isFinite x = true ∧ Quantity.atLeast x Quantity.zero = true := by
  simp [quantityFault?]

theorem resourcesFault?_eq_none {b : Bundle Q} : resourcesFault? b = none ↔ Bundle.Valid b := by
  rw [resourcesFault?, Option.map_eq_none_iff, Bundle.fault?_eq_none_iff]

theorem checkQuantity_eq_ok {key : String} {x : Q} : checkQuantity key x = .ok () ↔
    Quantity.isFinite x = true ∧ Quantity.atLeast x Quantity.zero = true := by
  rw [checkQuantity, underKey_eq_ok, checked_eq_ok, and_iff_left rfl, quantityFault?_eq_none]

/-! ## Valid options -/

/-- What may stand under a key. -/
def OptionKey.Allows : (key : OptionKey) → key.Content Q → Prop
  | .numCpus, x | .numGpus, x => Quantity.isFinite x = true ∧ Quantity.atLeast x Quantity.zero = true
  | .resources, held => ∀ b, held = some b → Bundle.Valid b
  | .maxConcurrency, limit => limit ≠ some 0
  | .name, _ | .nameSpace, _ | .lifetime, _ | .placementGroup, _ => True

namespace ActorOptions

variable {o : ActorOptions Q}

theorem validate_eq_ok : o.validate = .ok () ↔ ∀ key : OptionKey, key.Allows (o.get key) := by
  have hresources : o.resources.bind resourcesFault? = none ↔ OptionKey.resources.Allows o.resources := by
    simp [Option.bind_eq_none_iff, resourcesFault?_eq_none, OptionKey.Allows]
  have hlimit : (if o.maxConcurrency = some 0 then some (OptionFault.zeroConcurrency (Q := Q)) else none) = none
      ↔ OptionKey.maxConcurrency.Allows (Q := Q) o.maxConcurrency := by
    simp [OptionKey.Allows]
  simp only [validate, except_bind_unit_eq_ok, checkQuantity_eq_ok, underKey_eq_ok, checked_eq_ok, hresources,
    hlimit, and_true]
  constructor
  · rintro ⟨hcpus, hgpus, hresources, hlimit⟩ key
    cases key with
    | numCpus => exact hcpus
    | numGpus => exact hgpus
    | resources => exact hresources
    | maxConcurrency => exact hlimit
    | name | nameSpace | lifetime | placementGroup => trivial
  · exact fun h => ⟨h .numCpus, h .numGpus, h .resources, h .maxConcurrency⟩

end ActorOptions

/-- Parameters that ask only for what there can be. -/
structure LaunchParams.Valid (p : LaunchParams Q) : Prop where
  cpus : Quantity.isFinite p.numCpus = true ∧ Quantity.atLeast p.numCpus Quantity.zero = true
  gpus : Quantity.isFinite p.numGpus = true ∧ Quantity.atLeast p.numGpus Quantity.zero = true
  resources : ∀ b, p.resources = some b → Bundle.Valid b
  limit : p.maxConcurrency ≠ some 0

theorem ActorOptions.toLaunchParams_valid {o : ActorOptions Q} (h : o.validate = .ok ()) :
    o.toLaunchParams.Valid where
  cpus := validate_eq_ok.1 h .numCpus
  gpus := validate_eq_ok.1 h .numGpus
  resources b hb := validate_eq_ok.1 h .resources b (Option.filter_eq_some_iff.1 hb).1
  limit := validate_eq_ok.1 h .maxConcurrency

end ActorPlacement
