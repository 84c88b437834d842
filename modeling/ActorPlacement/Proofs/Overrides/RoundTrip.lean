import ActorPlacement.Proofs.Overrides.Application
import ActorPlacement.Quantity.Double
import Mathlib.Data.List.Nodup

/-!
# Launch parameters read back as overrides

Launch parameters are written as a table of what they say of the options (`LaunchParams.said`). JSON gives back
every value but a handle (`OptionValue.ofTree_toTree`), so reading the table gives overrides that say the same.
Applied to bare options they restore the options that the parameters were made of, up to an empty bundle of
resources. A reservation is written as the text of its token, which is no value for a placement group.
-/

namespace ActorPlacement

variable {Q : Type}

/-! ## Values -/

namespace OptionValue

variable [Quantity Q] {value : OptionValue Q}

/-- How JSON writes a value whose quantities are finite. A handle is written as its token. -/
def toTree : OptionValue Q → Tree Q
  | real x => .real x
  | whole n => .whole n
  | text s => .text s
  | resources bundle => LaunchParams.bundleTree bundle
  | handle h => .text h.token.text
  | unset => .absent

/-- Values that can be read back. -/
def Legible : OptionValue Q → Prop
  | whole n => fitsWord n = true
  | handle _ => False
  | real _ | text _ | resources _ | unset => True

theorem bundleOfEntries_entries (b : Bundle Q) :
    bundleOfEntries (b.entries.map fun e => (e.1, .real e.2)) = .ok b := by
  have hgo : ∀ (entries : List (String × Q)) (bundle : Bundle Q),
      bundleOfEntries.go bundle (entries.map fun e => (e.1, .real e.2))
        = .ok (entries.foldl (fun m e => m.insert e.1 e.2) bundle) := by
    intro entries
    induction entries with
    | nil => exact fun _ => rfl
    | cons e rest ih => exact fun bundle => ih (bundle.insert e.1 e.2)
  rw [bundleOfEntries, hgo]
  exact congrArg Except.ok b.ofList_entries

theorem ofTree_toTree (h : value.Legible) : ofTree value.toTree = .ok value := by
  cases value with
  | whole n =>
    have hfits : fitsWord n = true := h
    simp [toTree, ofTree, hfits]
  | resources bundle =>
    show (bundleOfEntries _).map resources = _
    rw [bundleOfEntries_entries]
    rfl
  | handle => exact h.elim
  | real | text | unset => rfl

theorem fitsWord_toNat (n : UInt32) : fitsWord n.toNat = true := by
  have hlt := n.toNat_lt_size
  have hword : UInt32.size ≤ UInt64.size / 2 := by decide
  simp only [fitsWord, Bool.and_eq_true, decide_eq_true_eq]
  omega

end OptionValue

/-! ## Tables -/

/-- Overrides that can be read back are. -/
theorem Overrides.ofEntries_toTree [WrittenQuantity Q] {overrides : Overrides Q}
    (h : ∀ e ∈ overrides.entries, e.2.Legible) :
    ofEntries (overrides.map OptionValue.toTree).entries = .ok overrides := by
  have hgo : ∀ (entries : List (String × OptionValue Q)) (read : Overrides Q), (∀ e ∈ entries, e.2.Legible) →
      ofEntries.go read (entries.map fun e => (e.1, e.2.toTree))
        = .ok (entries.foldl (fun m e => m.insert e.1 e.2) read) := by
    intro entries
    induction entries with
    | nil => exact fun _ _ => rfl
    | cons e rest ih =>
      intro read hlegible
      obtain ⟨hfirst, hrest⟩ := List.forall_mem_cons.1 hlegible
      simp only [List.map_cons, ofEntries.go, OptionValue.ofTree_toTree hfirst, underKey]
      exact ih _ hrest
  rw [ofEntries, NameMap.map, hgo overrides.entries _ h]
  exact congrArg Except.ok overrides.ofList_entries

namespace LaunchParams

variable [Quantity Q] {p : LaunchParams Q}

/-- What the parameters say of an option. -/
def said (p : LaunchParams Q) : OptionKey → Option (OptionValue Q)
  | .numCpus => some (.real p.numCpus)
  | .numGpus => some (.real p.numGpus)
  | .resources => p.resources.map .resources
  | .maxConcurrency => p.maxConcurrency.map fun n => .whole n.toNat
  | .name => p.name.map .text
  | .nameSpace => p.nameSpace.map .text
  | .lifetime => p.lifetime.map fun l => .text l.name
  | .placementGroup => p.placementGroup.map fun h => .text h.token.text

/-- The options of which something is said, in their order. -/
def values (p : LaunchParams Q) : List (String × OptionValue Q) :=
  OptionKey.all.filterMap fun key => (p.said key).map fun value => (key.text, value)

/-- The parameters as overrides. -/
def overrides (p : LaunchParams Q) : Overrides Q := NameMap.ofList p.values

omit [Quantity Q] in
theorem entry?_eq {α : Type} (key : OptionKey) (value : Option α) (f : α → Tree Q) :
    entry? key value f = (value.map fun x => (key.text, f x)).toList := by cases value <;> rfl

theorem entries_eq (p : LaunchParams Q) : p.entries = p.values.map fun e => (e.1, e.2.toTree) := by
  rw [values, List.map_filterMap, List.filterMap_eq_flatMap_toList]
  simp [entries, entry?_eq, OptionKey.all, said, Option.map_map, Function.comp_def, OptionValue.toTree]

theorem toValue_eq (p : LaunchParams Q) : p.toValue = p.overrides.map OptionValue.toTree := by
  rw [toValue, entries_eq, overrides, NameMap.map_ofList]

theorem mem_values {name : String} {value : OptionValue Q} :
    (name, value) ∈ p.values ↔ ∃ key, p.said key = some value ∧ OptionKey.text key = name := by
  simp [values, OptionKey.mem_all]

theorem nodup_values (p : LaunchParams Q) : (p.values.map Prod.fst).Nodup := by
  rw [values, List.map_filterMap]
  refine List.Nodup.filterMap (fun key other name hkey hother => ?_) (by decide)
  simp only [Option.mem_def, Option.map_map, Option.map_eq_some_iff] at hkey hother
  obtain ⟨_, -, rfl⟩ := hkey
  obtain ⟨_, -, heq⟩ := hother
  exact OptionKey.text_injective heq.symm

theorem find?_overrides {name : String} {value : OptionValue Q} :
    p.overrides.find? name = some value ↔ ∃ key, p.said key = some value ∧ OptionKey.text key = name := by
  rw [overrides, NameMap.find?_ofList_eq_some_iff p.nodup_values, mem_values]

theorem valueAt_overrides (p : LaunchParams Q) : p.overrides.valueAt = p.said := by
  refine funext fun key => Option.ext fun value => ?_
  rw [Overrides.valueAt, find?_overrides]
  simp [OptionKey.text_injective.eq_iff]

/-- The parameters speak of options only. -/
theorem not_foreign_overrides (name : String) : ¬p.overrides.Foreign name := by
  rintro ⟨hname, hforeign⟩
  obtain ⟨value, hfind⟩ := NameMap.mem_names_iff.1 hname
  obtain ⟨key, -, hkey⟩ := find?_overrides.1 hfind
  exact hforeign ⟨key, hkey⟩

theorem legible_said {key : OptionKey} {value : OptionValue Q} (h : p.said key = some value) : value.Legible := by
  cases key with
  | numCpus | numGpus =>
    cases h
    trivial
  | maxConcurrency =>
    obtain ⟨n, -, rfl⟩ := Option.map_eq_some_iff.1 h
    exact OptionValue.fitsWord_toNat n
  | resources | name | nameSpace | lifetime | placementGroup =>
    obtain ⟨_, -, rfl⟩ := Option.map_eq_some_iff.1 h
    trivial

/-- The parameters are read back as overrides that say the same. -/
theorem ofEntries_toValue {Q : Type} [WrittenQuantity Q] (p : LaunchParams Q) :
    Overrides.ofEntries p.toValue.entries = .ok p.overrides := by
  rw [toValue_eq]
  refine Overrides.ofEntries_toTree fun e he => ?_
  obtain ⟨key, hsaid, -⟩ := find?_overrides.1 ((NameMap.find?_eq_some_iff p.overrides e.1 e.2).2 he)
  exact legible_said hsaid

end LaunchParams

/-! ## Options -/

section Restored

variable [Quantity Q] {o : ActorOptions Q}

namespace ActorOptions

/-- The options, an empty bundle of resources left out. -/
def withoutEmpty (o : ActorOptions Q) : ActorOptions Q :=
  { o with resources := o.resources.filter fun bundle => !bundle.isEmpty }

theorem toLaunchParams_withoutEmpty (o : ActorOptions Q) : o.withoutEmpty.toLaunchParams = o.toLaunchParams := by
  simp [withoutEmpty, toLaunchParams, Option.filter_filter]

/-- A value that was written from what an option holds says that again. -/
theorem saysOptional_of_map {α : Type} {content : Option α} {write : α → OptionValue Q} {given : α → Prop}
    {value : OptionValue Q} (h : content.map write = some value)
    (hgiven : ∀ x, content = some x → value = write x → given x) : value.SaysOptional given content := by
  obtain ⟨x, rfl, hwritten⟩ := Option.map_eq_some_iff.1 h
  exact hgiven x rfl hwritten.symm

/-- What is said of valid options is what they hold. A token is not a handle. -/
theorem says_said {key : OptionKey} {value : OptionValue Q} (hvalid : o.validate = .ok ())
    (hkey : key ≠ .placementGroup) (h : o.toLaunchParams.said key = some value) :
    value.Says key (o.withoutEmpty.get key) := by
  have hparams := toLaunchParams_valid hvalid
  cases key with
  | numCpus =>
    cases h
    exact ⟨.inl rfl, hparams.cpus⟩
  | numGpus =>
    cases h
    exact ⟨.inl rfl, hparams.gpus⟩
  | resources =>
    exact saysOptional_of_map h fun bundle hbundle hwritten => ⟨hwritten, hparams.resources bundle hbundle⟩
  | maxConcurrency =>
    refine saysOptional_of_map h fun n hlimit hwritten => ⟨hwritten, ?_⟩
    rintro rfl
    exact hparams.limit hlimit
  | name | nameSpace | lifetime => exact saysOptional_of_map h fun _ _ hwritten => hwritten
  | placementGroup => exact absurd rfl hkey

/-- Options of which nothing is said are bare. -/
theorem get_of_said_eq_none {key : OptionKey} (h : o.toLaunchParams.said key = none) :
    o.withoutEmpty.get key = (bare : ActorOptions Q).get key := by
  cases key with
  | numCpus | numGpus => cases h
  | resources | maxConcurrency | name | nameSpace | lifetime | placementGroup => exact Option.map_eq_none_iff.1 h

end ActorOptions

/-- Overrides made of valid options without a reservation restore them. -/
theorem ActorOptions.apply_overrides (hvalid : o.validate = .ok ()) (hbare : o.placementGroup = none) :
    o.toLaunchParams.overrides.apply bare = ⟨o.withoutEmpty, none⟩ := by
  refine Overrides.apply_of_merges o.toLaunchParams.not_foreign_overrides ?_
  rw [LaunchParams.valueAt_overrides]
  refine ⟨fun key value hsaid => says_said hvalid ?_ hsaid, fun key hnone => get_of_said_eq_none hnone⟩
  rintro rfl
  obtain ⟨handle, hgroup, -⟩ := Option.map_eq_some_iff.1 hsaid
  cases hbare.symm.trans hgroup

/-- A token is no value for a placement group, and nothing else is refused. -/
theorem ActorOptions.bad_apply_overrides {handle : Handle Q} (hvalid : o.validate = .ok ())
    (hgroup : o.placementGroup = some handle) :
    (o.toLaunchParams.overrides.apply bare).bad
      = some ⟨OptionKey.placementGroup.text, .wrongKind .handle .text⟩ := by
  have hsaid : o.toLaunchParams.said .placementGroup = some (.text handle.token.text) :=
    Option.map_eq_some_iff.2 ⟨handle, hgroup, rfl⟩
  have hwalked := Overrides.apply_walked o.toLaunchParams.not_foreign_overrides bare
  rw [LaunchParams.valueAt_overrides] at hwalked
  generalize o.toLaunchParams.overrides.apply bare = applied at hwalked ⊢
  cases hwalked with
  | all options merged =>
    have hgiven := OptionValue.contentFor_eq_ok.2 (merged.named .placementGroup _ hsaid)
    cases hgiven
  | upTo key value fault options found refused merged =>
    by_cases hkey : key = .placementGroup
    · subst hkey
      cases hsaid.symm.trans found
      cases refused
      rfl
    · have hok := OptionValue.contentFor_eq_ok.2 (says_said hvalid hkey found)
      cases hok.symm.trans refused

end Restored

/-- **Launch parameters and overrides do not drift apart.** The parameters of valid options are read as overrides.
If the options carry no reservation, these restore them from bare options, but for an empty bundle of resources,
so the parameters are the same again. If they carry one, the overrides are refused for the placement group. -/
theorem overrides_of_launchParams [WrittenQuantity Q] (o : ActorOptions Q) (hvalid : o.validate = .ok ()) :
    ∃ overrides : Overrides Q, Overrides.ofEntries o.toLaunchParams.toValue.entries = .ok overrides
      ∧ (o.placementGroup = none → overrides.apply ActorOptions.bare = ⟨o.withoutEmpty, none⟩
          ∧ o.withoutEmpty.toLaunchParams = o.toLaunchParams)
      ∧ ∀ handle, o.placementGroup = some handle →
          (overrides.apply ActorOptions.bare).bad
            = some ⟨OptionKey.placementGroup.text, .wrongKind .handle .text⟩ :=
  ⟨o.toLaunchParams.overrides, o.toLaunchParams.ofEntries_toValue,
    fun hbare => ⟨ActorOptions.apply_overrides hvalid hbare, o.toLaunchParams_withoutEmpty⟩,
    fun _ hgroup => ActorOptions.bad_apply_overrides hvalid hgroup⟩

/-- Options of a worker come back but for an empty bundle; with a reservation they do not. -/
theorem overrides_of_launchParams_worker :
    let unit : Bundle Float := NameMap.empty.insert "TPU" 1
    let spec : PlacementSpec Float := ⟨[unit], .pack, .halfMinute, by simp, by decide, by decide +kernel⟩
    let free : ActorOptions Float :=
      { numCpus := 0.5, numGpus := 1, resources := some NameMap.empty, maxConcurrency := some 8,
        name := some "worker", lifetime := some .detached }
    let placed : ActorOptions Float := { free with resources := some unit, placementGroup := some ⟨⟨"pg"⟩, spec⟩ }
    (∃ overrides : Overrides Float, Overrides.ofEntries free.toLaunchParams.toValue.entries = .ok overrides
      ∧ overrides.apply ActorOptions.bare = ⟨{ free with resources := none }, none⟩)
      ∧ ∃ overrides : Overrides Float, Overrides.ofEntries placed.toLaunchParams.toValue.entries = .ok overrides
        ∧ (overrides.apply ActorOptions.bare).bad = some ⟨"placement_group", .wrongKind .handle .text⟩ := by
  intro unit spec free placed
  have hfree : free.validate = .ok () := except_toOption_eq_some.1 (by decide +kernel)
  have hplaced : placed.validate = .ok () := except_toOption_eq_some.1 (by decide +kernel)
  obtain ⟨overrides, hread, hrestored, -⟩ := overrides_of_launchParams free hfree
  obtain ⟨others, hothers, -, hrefused⟩ := overrides_of_launchParams placed hplaced
  exact ⟨⟨overrides, hread, (hrestored rfl).1⟩, others, hothers, hrefused _ rfl⟩

end ActorPlacement
