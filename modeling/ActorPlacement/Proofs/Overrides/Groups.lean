import ActorPlacement.Proofs.Overrides.Application
import ActorPlacement.Proofs.Overrides.Assignments

/-!
# Reservations that overrides bring along

Only the entry under the name of the placement group can change the reservation that options carry. If the
overrides supply one and can be applied, the options carry one (`isSome_of_suppliesPlacement`). A text never
stands for a handle, so overrides that were read from assignments bring none (`handleless_of_assignAll`).
-/

namespace ActorPlacement

namespace Overrides

variable {Q : Type}

section Apply

variable [Quantity Q] {overrides : Overrides Q} {options : ActorOptions Q}

/-- Who brings a handle has options that carry one, unless the overrides cannot be applied. -/
theorem isSome_of_suppliesPlacement (h : overrides.suppliesPlacement = true)
    (hbad : (overrides.apply options).bad = none) :
    (overrides.apply options).options.placementGroup.isSome := by
  have hvalue : ∃ handle, overrides.valueAt .placementGroup = some (.handle handle) := by
    simp only [suppliesPlacement] at h
    split at h
    · exact ⟨_, ‹_›⟩
    · cases h
  obtain ⟨handle, hvalue⟩ := hvalue
  have hgiven : (OptionValue.handle handle).Says .placementGroup (some handle) := rfl
  have hgroup := ((merges_of_bad_eq_none hbad).named .placementGroup _ hvalue).unique hgiven
  exact Option.isSome_iff_exists.2 ⟨handle, hgroup⟩

/-- Overrides that bring no handle. -/
def Handleless (overrides : Overrides Q) : Prop := ∀ e ∈ overrides.entries, ∀ handle, e.2 ≠ .handle handle

/-- Options without a reservation are still without one after overrides that bring none. -/
theorem placementGroup_apply_of_handleless (h : overrides.Handleless) (hnone : options.placementGroup = none) :
    (overrides.apply options).options.placementGroup = none := by
  obtain ⟨said, hsaid, hmerges⟩ := exists_merges overrides options
  cases hvalue : said .placementGroup with
  | none => exact (hmerges.others .placementGroup hvalue).trans hnone
  | some value =>
    have hmem := (NameMap.find?_eq_some_iff _ _ _).1 (hsaid .placementGroup value hvalue)
    have hgroup : value.SaysOptional _ (overrides.apply options).options.placementGroup :=
      hmerges.named .placementGroup value hvalue
    cases hfound : (overrides.apply options).options.placementGroup with
    | none => rfl
    | some handle =>
      rw [hfound] at hgroup
      exact absurd hgroup (h _ hmem handle)

end Apply

section Read

theorem ofTree_ne_handle [Quantity Q] {tree : Tree Q} {value : OptionValue Q}
    (h : OptionValue.ofTree tree = .ok value) (handle : Handle Q) : value ≠ .handle handle := by
  rintro rfl
  cases tree with
  | table entries =>
    obtain ⟨_, -, heq⟩ := except_map_eq_ok.1 h
    cases heq
  | whole n =>
    simp only [OptionValue.ofTree] at h
    split at h <;> cases h
  | absent | flag | real | text | stamp | unread | list => cases h

variable [WrittenQuantity Q] {overrides assigned : Overrides Q}

theorem valueOfText_ne_handle {text : String} {value : OptionValue Q}
    (h : valueOfText text = .ok value) (handle : Handle Q) : value ≠ .handle handle := by
  simp only [valueOfText] at h
  split at h
  · exact ofTree_ne_handle h handle
  · cases h
    intro heq
    cases heq

theorem Handleless.assign (h : overrides.Handleless) {raw : String}
    (hassign : overrides.assign raw = .ok assigned) : assigned.Handleless := by
  obtain ⟨key, value, ⟨_, _, -, -, -, hvalue⟩, rfl⟩ := assigns_of_assign hassign
  intro e he handle
  rcases fst_mem_insertEntry he with rfl | he
  · exact valueOfText_ne_handle hvalue handle
  · exact h e he handle

theorem Handleless.assignAll (h : overrides.Handleless) {raws : List String}
    (hassign : overrides.assignAll raws = .ok assigned) : assigned.Handleless := by
  induction raws generalizing overrides with
  | nil =>
    cases hassign
    exact h
  | cons raw rest ih =>
    rw [Overrides.assignAll, List.foldlM_cons] at hassign
    obtain ⟨first, hfirst, hrest⟩ := except_bind_eq_ok.1 hassign
    exact ih (h.assign hfirst) hrest

/-- Assignments bring no handle. -/
theorem handleless_of_assignAll {raws : List String}
    (h : Overrides.assignAll NameMap.empty raws = .ok assigned) : assigned.Handleless := by
  have hempty : Handleless (NameMap.empty : Overrides Q) := fun e he => by cases he
  exact hempty.assignAll h

end Read

end Overrides

end ActorPlacement
