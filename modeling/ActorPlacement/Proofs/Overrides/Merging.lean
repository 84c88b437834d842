import ActorPlacement.Proofs.Overrides.Application

/-!
# Overrides put over one another

Whether overrides can be applied does not depend on the options (`Overrides.bad_eq_none_iff`). What is said first and
what is said later, where it is silent, add up (`Overrides.Merges.trans`), and what is said determines the result. So
overrides that were put over one another give what they give one after the other.
-/

namespace ActorPlacement

namespace Overrides

variable {Q : Type} [Quantity Q] {p q : Overrides Q} {base middle options : ActorOptions Q}

/-- Overrides of options only, each with a value that says something there. -/
structure Accepted (overrides : Overrides Q) : Prop where
  known : ∀ name, ¬overrides.Foreign name
  usable : ∀ name, ¬overrides.Refuses name

/-- Overrides are applied in full to all options or to none. -/
theorem bad_eq_none_iff {overrides : Overrides Q} : (overrides.apply base).bad = none ↔ overrides.Accepted := by
  constructor
  · intro hbad
    have hknown : ∀ name, ¬overrides.Foreign name := fun name hforeign => by
      obtain ⟨least, -, happlied⟩ := apply_of_foreign ⟨name, hforeign⟩ base
      rw [happlied] at hbad
      cases hbad
    refine ⟨hknown, fun name hrefused => ?_⟩
    obtain ⟨least, fault, -, hfault, -⟩ := apply_of_refuses hknown ⟨name, hrefused⟩ base
    rw [hfault] at hbad
    cases hbad
  · intro haccepted
    exact apply_of_accepts haccepted.known haccepted.usable base

theorem Accepted.of_exists {overrides : Overrides Q} (h : ∃ base, (overrides.apply base).bad = none) :
    overrides.Accepted := by
  obtain ⟨base, hbad⟩ := h
  exact bad_eq_none_iff.1 hbad

theorem Accepted.merges {overrides : Overrides Q} (h : overrides.Accepted) (base : ActorOptions Q) :
    Merges overrides.valueAt base (overrides.apply base).options :=
  merges_of_bad_eq_none (bad_eq_none_iff.2 h)

/-- Of what is said of an option the later counts. -/
theorem Merges.trans {said more : OptionKey → Option (OptionValue Q)} (h : Merges said base middle)
    (hmore : Merges more middle options) : Merges (fun key => (more key).or (said key)) base options where
  named key value hsaid := by
    cases hlater : more key with
    | some later =>
      rw [hlater, Option.some_or] at hsaid
      cases hsaid
      exact hmore.named key value hlater
    | none =>
      rw [hlater, Option.none_or] at hsaid
      rw [hmore.others key hlater]
      exact h.named key value hsaid
  others key hnone := by
    obtain ⟨hlater, hearlier⟩ := Option.or_eq_none_iff.1 hnone
    rw [hmore.others key hlater, h.others key hearlier]

theorem valueAt_insertAll (p q : Overrides Q) (key : OptionKey) :
    valueAt (p.insertAll q) key = (q.valueAt key).or (p.valueAt key) :=
  NameMap.find?_insertAll p q key.text

theorem Foreign.of_insertAll {name : String} (h : Foreign (p.insertAll q) name) : p.Foreign name ∨ q.Foreign name := by
  obtain ⟨hname, hforeign⟩ := h
  obtain ⟨value, hfind⟩ := NameMap.mem_names_iff.1 hname
  rw [NameMap.find?_insertAll, Option.or_eq_some_iff] at hfind
  rcases hfind with hfind | ⟨-, hfind⟩
  · exact .inr ⟨NameMap.mem_names_of_find? hfind, hforeign⟩
  · exact .inl ⟨NameMap.mem_names_of_find? hfind, hforeign⟩

/-- Who obeys the first overrides and then the second is given what both say, put over one another. -/
theorem Accepted.apply_insertAll_eq (hp : p.Accepted) (hq : q.Accepted) (base : ActorOptions Q) :
    apply (p.insertAll q) base = q.apply (p.apply base).options := by
  have hmerges := (hp.merges base).trans (hq.merges (p.apply base).options)
  have hbad : (q.apply (p.apply base).options).bad = none := bad_eq_none_iff.2 hq
  generalize q.apply (p.apply base).options = applied at hmerges hbad ⊢
  obtain ⟨options, bad⟩ := applied
  obtain rfl : bad = none := hbad
  refine apply_of_merges (fun name hforeign => ?_) ?_
  · rcases hforeign.of_insertAll with hforeign | hforeign
    · exact hp.known name hforeign
    · exact hq.known name hforeign
  · rw [show valueAt (p.insertAll q) = _ from funext (valueAt_insertAll p q)]
    exact hmerges

theorem insertAll_self (p : Overrides Q) : p.insertAll p = p := by
  refine NameMap.ext_find? fun name => ?_
  rw [NameMap.find?_insertAll]
  cases p.find? name <;> rfl

theorem insertAll_comm_of_disjoint (h : ∀ name ∈ p.names, name ∉ q.names) : p.insertAll q = q.insertAll p := by
  refine NameMap.ext_find? fun name => ?_
  rw [NameMap.find?_insertAll, NameMap.find?_insertAll]
  cases hfirst : p.find? name with
  | none => simp
  | some value =>
    have hnone : q.find? name = none := Option.eq_none_iff_forall_ne_some.2 fun other hother =>
      h name (NameMap.mem_names_of_find? hfirst) (NameMap.mem_names_of_find? hother)
    simp [hnone]

/-- **Putting overrides over one another is applying them one after the other.** If each of two overrides can be
applied to some options, both can be applied to any, and so can the first with the second put over it, which gives
what the two give in turn. So to apply overrides twice is to apply them once, and overrides of different options may
change places. -/
theorem apply_insertAll (p q : Overrides Q) (hp : ∃ base, (p.apply base).bad = none)
    (hq : ∃ base, (q.apply base).bad = none) (base : ActorOptions Q) :
    (p.apply base).bad = none ∧ (q.apply (p.apply base).options).bad = none
      ∧ apply (p.insertAll q) base = q.apply (p.apply base).options
      ∧ p.apply (p.apply base).options = p.apply base
      ∧ ((∀ name ∈ p.names, name ∉ q.names) → q.apply (p.apply base).options = p.apply (q.apply base).options) := by
  have hfirst := Accepted.of_exists hp
  have hsecond := Accepted.of_exists hq
  refine ⟨bad_eq_none_iff.2 hfirst, bad_eq_none_iff.2 hsecond, hfirst.apply_insertAll_eq hsecond base, ?_,
    fun hdisjoint => ?_⟩
  · rw [← hfirst.apply_insertAll_eq hfirst base, insertAll_self]
  · rw [← hfirst.apply_insertAll_eq hsecond base, insertAll_comm_of_disjoint hdisjoint,
      hsecond.apply_insertAll_eq hfirst base]

/-- The second overrides clear a name that the first gave and raise a limit: put over the first they do the same.
Others that only ask for processors may come before or after the first. -/
theorem apply_insertAll_cleared :
    let base : ActorOptions Rat := { ActorOptions.bare with numGpus := 1, lifetime := some .detached }
    let first : Overrides Rat := (NameMap.empty.insert "name" (.text "worker")).insert "max_concurrency" (.whole 4)
    let second : Overrides Rat := (NameMap.empty.insert "name" .unset).insert "max_concurrency" (.whole 8)
    let third : Overrides Rat := NameMap.empty.insert "num_cpus" (.whole 2)
    apply (first.insertAll second) base = second.apply (first.apply base).options
      ∧ (apply (first.insertAll second) base).options.name = none
      ∧ (apply (first.insertAll second) base).options.maxConcurrency = some 8
      ∧ third.apply (first.apply base).options = first.apply (third.apply base).options := by
  intro base first second third
  have hfirst : ∃ base, (first.apply base).bad = none := ⟨base, rfl⟩
  have hsecond : ∃ base, (second.apply base).bad = none := ⟨base, rfl⟩
  have hthird : ∃ base, (third.apply base).bad = none :=
    ⟨base, Option.isNone_iff_eq_none.1 (by decide +kernel)⟩
  obtain ⟨-, -, hboth, -⟩ := apply_insertAll first second hfirst hsecond base
  obtain ⟨-, -, -, -, hswapped⟩ := apply_insertAll first third hfirst hthird base
  exact ⟨hboth, rfl, rfl, hswapped (by decide)⟩

end Overrides

end ActorPlacement
