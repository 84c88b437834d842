import ActorPlacement.NameMap.Lemmas
import ActorPlacement.Overrides.Basic
import ActorPlacement.Proofs.Options.Validity
import ActorPlacement.Proofs.Results
import ActorPlacement.Text.Octets

/-!
# Applying overrides

What a value makes of an option depends on the two alone (`OptionValue.Says`), so overrides are applied key by
key: options that hold what is said, and else what they held before (`Overrides.Merges`), are determined by
what is said. The walk over the entries is an induction on them (`Overrides.applyEntries_walked`). Their names
ascend, so no entry speaks of an option that an earlier one was about, and a walk that stops has put in place
just what lesser names say.
-/

namespace ActorPlacement

variable {Q : Type} [Quantity Q]

/-! ## What values say -/

namespace Lifetime

theorem ofText_name (l : Lifetime) : (ofText l.name : Except (OptionFault Q) Lifetime) = .ok l := by
  rw [ofText, ofName?_name]

theorem ofText_eq_ok {s : String} {l : Lifetime} :
    (ofText s : Except (OptionFault Q) Lifetime) = .ok l ↔ s = l.name := by
  constructor
  · intro h
    simp only [ofText] at h
    split at h
    · rename_i found hfound
      cases h
      have hname := List.find?_some (p := fun l : Lifetime => l.name == s) hfound
      exact (beq_iff_eq.1 hname).symm
    · cases h
  · rintro rfl
    exact ofText_name l

end Lifetime

namespace OptionValue

variable {value : OptionValue Q} {key : OptionKey}

/-- The value says a quantity of processors: a number, whole or not, that is finite and not negative. -/
def SaysQuantity (value : OptionValue Q) (x : Q) : Prop :=
  (value = .real x ∨ ∃ n, value = .whole n ∧ Quantity.ofInt n = x)
    ∧ Quantity.isFinite x = true ∧ Quantity.atLeast x Quantity.zero = true

/-- The value says one of the contents that may be given, or clears the option. -/
def SaysOptional {α : Type} (value : OptionValue Q) (given : α → Prop) : Option α → Prop
  | none => value = .unset
  | some x => given x

/-- What an option holds once the value is put in its place. A value that says nothing for an option is not
acceptable there. -/
def Says (value : OptionValue Q) : (key : OptionKey) → key.Content Q → Prop
  | .numCpus, x | .numGpus, x => value.SaysQuantity x
  | .resources, content => value.SaysOptional (fun b => value = .resources b ∧ Bundle.Valid b) content
  | .maxConcurrency, content => value.SaysOptional (fun n : UInt32 => value = .whole n.toNat ∧ n ≠ 0) content
  | .name, content | .nameSpace, content => value.SaysOptional (fun s => value = .text s) content
  | .lifetime, content => value.SaysOptional (fun l : Lifetime => value = .text l.name) content
  | .placementGroup, content => value.SaysOptional (fun h => value = .handle h) content

/-- The content that an option gets from the value, or what is wrong with the value there. -/
def contentFor (value : OptionValue Q) : (key : OptionKey) → Except (OptionFault Q) (key.Content Q)
  | .numCpus | .numGpus => Overrides.quantityOf value
  | .resources => Overrides.resourcesOf value
  | .maxConcurrency => Overrides.concurrencyOf value
  | .name | .nameSpace => Overrides.textOf value
  | .lifetime => Overrides.lifetimeOf value
  | .placementGroup => Overrides.handleOf value

theorem quantityOf_eq_ok {x : Q} : Overrides.quantityOf value = .ok x ↔ value.SaysQuantity x := by
  cases value with
  | real y =>
    simp only [Overrides.quantityOf, checked_eq_ok, quantityFault?_eq_none, SaysQuantity]
    constructor
    · rintro ⟨hy, rfl⟩
      exact ⟨.inl rfl, hy⟩
    · rintro ⟨heq | ⟨n, heq, -⟩, hx⟩ <;> cases heq
      exact ⟨hx, rfl⟩
  | whole n =>
    simp only [Overrides.quantityOf, checked_eq_ok, quantityFault?_eq_none, SaysQuantity]
    constructor
    · rintro ⟨hn, rfl⟩
      exact ⟨.inr ⟨n, rfl, rfl⟩, hn⟩
    · rintro ⟨heq | ⟨m, heq, rfl⟩, hx⟩ <;> cases heq
      exact ⟨hx, rfl⟩
  | text | resources | handle | unset => simp [Overrides.quantityOf, SaysQuantity]

theorem resourcesOf_eq_ok {content : Option (Bundle Q)} : Overrides.resourcesOf value = .ok content ↔
    value.SaysOptional (fun b => value = .resources b ∧ Bundle.Valid b) content := by
  cases value with
  | resources bundle =>
    rw [Overrides.resourcesOf, checked_eq_ok, resourcesFault?_eq_none]
    constructor
    · rintro ⟨hvalid, rfl⟩
      exact ⟨rfl, hvalid⟩
    · intro h
      cases content with
      | none => cases h
      | some b =>
        obtain ⟨heq, hvalid⟩ := h
        cases heq
        exact ⟨hvalid, rfl⟩
  | unset | real | whole | text | handle => cases content <;> simp [Overrides.resourcesOf, SaysOptional]

theorem concurrencyOf_whole (n : UInt32) (h : n ≠ 0) :
    Overrides.concurrencyOf (.whole n.toNat : OptionValue Q) = .ok (some n) := by
  have hpos : n.toNat ≠ 0 := fun hzero => h (UInt32.toNat_inj.1 hzero)
  have hlt := n.toNat_lt_size
  simp only [Overrides.concurrencyOf]
  rw [if_pos (by omega)]
  simp

theorem concurrencyOf_eq_ok {content : Option UInt32} : Overrides.concurrencyOf value = .ok content ↔
    value.SaysOptional (fun n : UInt32 => value = .whole n.toNat ∧ n ≠ 0) content := by
  constructor
  · intro h
    cases value with
    | whole n =>
      simp only [Overrides.concurrencyOf] at h
      split at h
      · rename_i hrange
        cases h
        have hlt : n.toNat < UInt32.size := by omega
        have hnat : (UInt32.ofNat n.toNat).toNat = n.toNat := UInt32.toNat_ofNat_of_lt hlt
        refine ⟨?_, fun hzero => ?_⟩
        · rw [hnat, Int.toNat_of_nonneg (by omega)]
        · rw [hzero] at hnat
          have : n.toNat = 0 := hnat.symm
          omega
      · cases h
    | unset => cases h; rfl
    | real | text | resources | handle => cases h
  · intro h
    cases content with
    | none =>
      obtain rfl : value = .unset := h
      rfl
    | some n =>
      obtain ⟨rfl, hn⟩ := h
      exact concurrencyOf_whole n hn

theorem textOf_eq_ok {content : Option String} :
    Overrides.textOf value = .ok content ↔ value.SaysOptional (fun s => value = .text s) content := by
  cases content <;> cases value <;> simp [Overrides.textOf, SaysOptional]

theorem lifetimeOf_eq_ok {content : Option Lifetime} : Overrides.lifetimeOf value = .ok content ↔
    value.SaysOptional (fun l : Lifetime => value = .text l.name) content := by
  cases content <;> cases value <;>
    simp [Overrides.lifetimeOf, Overrides.textOf, SaysOptional, except_map_eq_ok, Lifetime.ofText_eq_ok]

theorem handleOf_eq_ok {content : Option (Handle Q)} :
    Overrides.handleOf value = .ok content ↔ value.SaysOptional (fun h => value = .handle h) content := by
  cases content <;> cases value <;> simp [Overrides.handleOf, SaysOptional]

/-- A value is accepted for an option just if it says something there, and then that is what is put in place. -/
theorem contentFor_eq_ok {content : key.Content Q} :
    value.contentFor key = .ok content ↔ value.Says key content := by
  cases key with
  | numCpus | numGpus => exact quantityOf_eq_ok
  | resources => exact resourcesOf_eq_ok
  | maxConcurrency => exact concurrencyOf_eq_ok
  | name | nameSpace => exact textOf_eq_ok
  | lifetime => exact lifetimeOf_eq_ok
  | placementGroup => exact handleOf_eq_ok

theorem Says.unique {content other : key.Content Q} (h : value.Says key content) (h' : value.Says key other) :
    content = other :=
  Except.ok.inj ((contentFor_eq_ok.2 h).symm.trans (contentFor_eq_ok.2 h'))

/-- Of a value for an option it is never said that there is no such option. -/
theorem contentFor_ne_noSuchOption : value.contentFor key ≠ .error .noSuchOption := by
  intro h
  cases key with
  | numCpus | numGpus =>
    cases value <;> simp [contentFor, Overrides.quantityOf, checked_eq_error, quantityFault?] at h
  | resources => cases value <;> simp [contentFor, Overrides.resourcesOf, checked_eq_error, resourcesFault?] at h
  | maxConcurrency =>
    cases value with
    | whole n =>
      simp only [contentFor, Overrides.concurrencyOf] at h
      split at h <;> cases h
    | real | text | resources | handle | unset => cases h
  | lifetime =>
    cases value with
    | text s =>
      simp only [contentFor, Overrides.lifetimeOf, Overrides.textOf, Lifetime.ofText] at h
      cases hname : Lifetime.ofName? s <;> rw [hname] at h <;> cases h
    | real | whole | resources | handle | unset => cases h
  | name | nameSpace | placementGroup => cases value <;> cases h

end OptionValue

namespace Overrides

variable {overrides : Overrides Q} {entries : List (String × OptionValue Q)} {base options other : ActorOptions Q}
  {key : OptionKey} {value : OptionValue Q} {said : OptionKey → Option (OptionValue Q)}

/-! ## One value -/

theorem applyOne_eq (options : ActorOptions Q) (key : OptionKey) (value : OptionValue Q) :
    applyOne options key value = (value.contentFor key).map (options.set key) := by
  cases key <;> rfl

/-- Every option is found by its name, and what its value says is put in place. -/
theorem applyNamed_text (options : ActorOptions Q) (key : OptionKey) (value : OptionValue Q) :
    applyNamed options key.text value = (value.contentFor key).map (options.set key) := by
  rw [← applyOne_eq]
  cases key <;> rfl

/-! ## What is said and what results -/

/-- Options that hold what is said, and what others hold under the keys of which nothing is said. -/
structure Merges (said : OptionKey → Option (OptionValue Q)) (base options : ActorOptions Q) : Prop where
  named : ∀ key value, said key = some value → value.Says key (options.get key)
  others : ∀ key, said key = none → options.get key = base.get key

theorem Merges.of_nothing (h : ∀ key, said key = none) : Merges said base base where
  named key value hsaid := by simp [h] at hsaid
  others _ _ := rfl

/-- What is said determines the options. -/
theorem Merges.unique (h : Merges said base options) (h' : Merges said base other) : options = other := by
  refine ActorOptions.ext_get fun key => ?_
  cases hsaid : said key with
  | none => rw [h.others key hsaid, h'.others key hsaid]
  | some value => exact (h.named key value hsaid).unique (h'.named key value hsaid)

/-- One more option is said, of which nothing is said later. -/
theorem Merges.insert {more : OptionKey → Option (OptionValue Q)} {content : key.Content Q}
    (h : Merges said (base.set key content) options) (hgiven : value.Says key content)
    (hfirst : said key = none) (hself : more key = some value)
    (hmore : ∀ other, key ≠ other → more other = said other) : Merges more base options where
  named other found hfound := by
    by_cases hkey : key = other
    · subst hkey
      obtain rfl := Option.some.inj (hself.symm.trans hfound)
      rw [h.others key hfirst, ActorOptions.get_set_self]
      exact hgiven
    · exact h.named other found ((hmore other hkey).symm.trans hfound)
  others other hnone := by
    by_cases hkey : key = other
    · subst hkey
      rw [hself] at hnone
      cases hnone
    · rw [h.others other ((hmore other hkey).symm.trans hnone), ActorOptions.get_set_of_ne base content hkey]

/-! ## The walk over the entries -/

/-- What a list says of an option. -/
def saidIn (entries : List (String × OptionValue Q)) (key : OptionKey) : Option (OptionValue Q) :=
  findEntry key.text entries

/-- What is said under names that come before another in byte order. -/
def saidBefore (name : String) (said : OptionKey → Option (OptionValue Q)) (key : OptionKey) :
    Option (OptionValue Q) :=
  if octets key.text < octets name then said key else none

/-- How a walk over entries ends: every value is in its place, or those of lesser names than the first that
says nothing for its option. -/
inductive Walked (said : OptionKey → Option (OptionValue Q)) (base : ActorOptions Q) : Applied Q → Prop where
  | all (options : ActorOptions Q) (merged : Merges said base options) : Walked said base ⟨options, none⟩
  | upTo (key : OptionKey) (value : OptionValue Q) (fault : OptionFault Q) (options : ActorOptions Q)
      (found : said key = some value) (refused : value.contentFor key = .error fault)
      (merged : Merges (saidBefore key.text said) base options) :
    Walked said base ⟨options, some ⟨key.text, fault⟩⟩

theorem applyEntries_walked (hascending : Ascending entries) (hnamed : ∀ e ∈ entries, OptionKey.Named e.1)
    (base : ActorOptions Q) : Walked (saidIn entries) base (applyEntries entries base) := by
  induction entries generalizing base with
  | nil => exact .all base (Merges.of_nothing fun _ => rfl)
  | cons entry rest ih =>
    obtain ⟨name, value⟩ := entry
    obtain ⟨key, rfl⟩ : OptionKey.Named name := hnamed _ List.mem_cons_self
    obtain ⟨hfirst, hrest⟩ := List.pairwise_cons.1 hascending
    have hnone : saidIn rest key = none := findEntry_eq_none_of_lt hfirst
    have hself : saidIn ((key.text, value) :: rest) key = some value := by simp [saidIn, findEntry]
    have hmore : ∀ other, key ≠ other → saidIn ((key.text, value) :: rest) other = saidIn rest other := by
      intro other hkey
      simp [saidIn, findEntry, OptionKey.text_injective.eq_iff, hkey]
    rw [applyEntries, applyNamed_text]
    cases hcontent : value.contentFor key with
    | error fault =>
      -- no entry has a lesser name than the first
      refine .upTo key value fault base hself hcontent (Merges.of_nothing fun other => ?_)
      unfold saidBefore
      split
      · rename_i hlt
        have hlesser : other.text < key.text := lt_iff_octets.2 hlt
        refine findEntry_eq_none_of_lt (List.forall_mem_cons.2 ⟨hlesser, fun e he => ?_⟩)
        exact String.lt_trans hlesser (hfirst e he)
      · rfl
    | ok content =>
      have hgiven := OptionValue.contentFor_eq_ok.1 hcontent
      have hwalked := ih hrest (fun e he => hnamed e (List.mem_cons_of_mem _ he)) (base.set key content)
      simp only [Except.map]
      generalize applyEntries rest (base.set key content) = applied at hwalked ⊢
      cases hwalked with
      | all options merged => exact .all options (merged.insert hgiven hnone hself hmore)
      | upTo later other fault options found refused merged =>
        have hlt : key.text < later.text := hfirst _ (mem_of_findEntry found)
        have hkey : key ≠ later := fun heq => String.lt_irrefl _ (heq ▸ hlt)
        refine .upTo later other fault options ((hmore later hkey).trans found) refused
          (merged.insert hgiven ?_ ?_ fun option hoption => ?_)
        · simp [saidBefore, hnone]
        · simp [saidBefore, lt_iff_octets.1 hlt, hself]
        · simp [saidBefore, hmore option hoption]

/-! ## All overrides -/

/-- The first of the names, in byte order, of which `P` holds. -/
def LeastName (P : String → Prop) (name : String) : Prop := P name ∧ ∀ other, P other → ¬octets other < octets name

/-- The overrides have an entry under a name that is no option's. -/
def Foreign (overrides : Overrides Q) (name : String) : Prop := name ∈ overrides.names ∧ ¬OptionKey.Named name

/-- The overrides have a value for the option of a name that says nothing there. -/
def Refuses (overrides : Overrides Q) (name : String) : Prop :=
  ∃ key value, OptionKey.text key = name ∧ overrides.find? name = some value ∧ ∀ content, ¬value.Says key content

/-- What overrides say of an option. -/
def valueAt (overrides : Overrides Q) (key : OptionKey) : Option (OptionValue Q) := overrides.find? key.text

/-- The first of ascending names that passes a test is the least that does. -/
theorem least_of_find? {names : List String} {p : String → Bool} {name : String}
    (hascending : names.Pairwise (· < ·)) (h : names.find? p = some name) :
    LeastName (fun other => other ∈ names ∧ p other = true) name := by
  obtain ⟨hp, before, after, rfl, hbefore⟩ := List.find?_eq_some_iff_append.1 h
  refine ⟨⟨by simp, hp⟩, fun other ⟨hmem, hother⟩ hoctets => ?_⟩
  have hlt := lt_iff_octets.2 hoctets
  rcases List.mem_append.1 hmem with hmem | hmem
  · simpa [hother] using hbefore other hmem
  · rcases List.mem_cons.1 hmem with rfl | hmem
    · exact String.lt_irrefl _ hlt
    · have hafter := (List.pairwise_cons.1 (List.pairwise_append.1 hascending).2.1).1
      exact String.lt_irrefl _ (String.lt_trans hlt (hafter other hmem))

theorem unknownKey?_eq_some {name : String} (h : overrides.unknownKey? = some name) :
    LeastName overrides.Foreign name := by
  have hleast := least_of_find? (ascending_iff_map_fst.1 overrides.ascending) h
  simp only [OptionKey.isNone_ofText?_iff] at hleast
  exact hleast

theorem unknownKey?_eq_none : overrides.unknownKey? = none ↔ ∀ name, ¬overrides.Foreign name := by
  simp only [unknownKey?, List.find?_eq_none, OptionKey.isNone_ofText?_iff, Foreign, not_and]

/-- Overrides with a name that is no option's change nothing. -/
theorem apply_of_foreign (h : ∃ name, overrides.Foreign name) (base : ActorOptions Q) :
    ∃ name, LeastName overrides.Foreign name ∧ overrides.apply base = ⟨base, some ⟨name, .unknownKey⟩⟩ := by
  cases hunknown : overrides.unknownKey? with
  | none =>
    obtain ⟨name, hforeign⟩ := h
    exact absurd hforeign (unknownKey?_eq_none.1 hunknown name)
  | some name => exact ⟨name, unknownKey?_eq_some hunknown, by rw [apply, hunknown]⟩

/-- Overrides of options only are walked through. -/
theorem apply_walked (h : ∀ name, ¬overrides.Foreign name) (base : ActorOptions Q) :
    Walked overrides.valueAt base (overrides.apply base) := by
  rw [apply, unknownKey?_eq_none.2 h]
  refine applyEntries_walked overrides.ascending (fun e he => ?_) base
  exact Classical.not_not.1 fun hnot => h e.1 ⟨List.mem_map_of_mem he, hnot⟩

/-- What holds of overrides that name something else than options, and of those that are walked through, holds
of all. -/
theorem apply_cases {P : Applied Q → Prop}
    (hforeign : ∀ name, LeastName overrides.Foreign name → P ⟨base, some ⟨name, .unknownKey⟩⟩)
    (hwalked : ∀ applied, Walked overrides.valueAt base applied → P applied) : P (overrides.apply base) := by
  by_cases h : ∃ name, overrides.Foreign name
  · obtain ⟨name, hleast, happlied⟩ := apply_of_foreign h base
    rw [happlied]
    exact hforeign name hleast
  · exact hwalked _ (apply_walked (not_exists.1 h) base)

/-- Who says something for every option that is named is obeyed in full. -/
theorem apply_of_merges (h : ∀ name, ¬overrides.Foreign name) (hmerges : Merges overrides.valueAt base options) :
    overrides.apply base = ⟨options, none⟩ := by
  have hwalked := apply_walked h base
  generalize overrides.apply base = applied at hwalked ⊢
  cases hwalked with
  | all other merged => rw [merged.unique hmerges]
  | upTo key value fault other found refused merged =>
    have hok := OptionValue.contentFor_eq_ok.2 (hmerges.named key value found)
    rw [refused] at hok
    cases hok

/-- However overrides are applied, the options are those from before and some of what is said. -/
theorem exists_merges (overrides : Overrides Q) (base : ActorOptions Q) :
    ∃ said, (∀ key value, said key = some value → overrides.valueAt key = some value)
      ∧ Merges said base (overrides.apply base).options := by
  refine apply_cases (P := fun applied => ∃ said,
      (∀ key value, said key = some value → overrides.valueAt key = some value) ∧ Merges said base applied.options)
    (fun name _ => ?_) fun applied hwalked => ?_
  · refine ⟨fun _ => none, fun _ _ h => ?_, Merges.of_nothing fun _ => rfl⟩
    cases h
  · cases hwalked with
    | all options merged => exact ⟨overrides.valueAt, fun _ _ h => h, merged⟩
    | upTo key value fault options found refused merged =>
      refine ⟨saidBefore key.text overrides.valueAt, fun other value hsaid => ?_, merged⟩
      unfold saidBefore at hsaid
      split at hsaid
      · exact hsaid
      · cases hsaid

/-- What is applied without a fault is all that is said. -/
theorem merges_of_bad_eq_none (h : (overrides.apply base).bad = none) :
    Merges overrides.valueAt base (overrides.apply base).options := by
  revert h
  refine apply_cases (P := fun applied => applied.bad = none → Merges overrides.valueAt base applied.options)
    (fun name _ h => ?_) fun applied hwalked h => ?_
  · cases h
  · cases hwalked with
    | all options merged => exact merged
    | upTo => cases h

theorem refuses_of_error {fault : OptionFault Q} (hvalue : overrides.valueAt key = some value)
    (hfault : value.contentFor key = .error fault) : overrides.Refuses key.text := by
  refine ⟨key, value, rfl, hvalue, fun content hgiven => ?_⟩
  rw [OptionValue.contentFor_eq_ok.2 hgiven] at hfault
  cases hfault

/-- The least name whose value is refused stops the walk, and what lesser names say is in place. -/
theorem apply_of_refuses (hknown : ∀ name, ¬overrides.Foreign name) (h : ∃ name, overrides.Refuses name)
    (base : ActorOptions Q) :
    ∃ name fault, LeastName overrides.Refuses name ∧ (overrides.apply base).bad = some ⟨name, fault⟩
      ∧ Merges (saidBefore name overrides.valueAt) base (overrides.apply base).options := by
  have hwalked := apply_walked hknown base
  generalize overrides.apply base = applied at hwalked ⊢
  cases hwalked with
  | all options merged =>
    obtain ⟨-, key, value, rfl, hvalue, hnothing⟩ := h
    exact absurd (merged.named key value hvalue) (hnothing _)
  | upTo key value fault options found refused merged =>
    refine ⟨key.text, fault, ⟨refuses_of_error found refused, ?_⟩, rfl, merged⟩
    rintro - ⟨other, less, rfl, hless, hnothing⟩ hlt
    have hsaid : saidBefore key.text overrides.valueAt other = some less := by
      rw [saidBefore, if_pos hlt]
      exact hless
    exact hnothing _ (merged.named other less hsaid)

theorem apply_of_accepts (hknown : ∀ name, ¬overrides.Foreign name) (h : ∀ name, ¬overrides.Refuses name)
    (base : ActorOptions Q) : (overrides.apply base).bad = none := by
  have hwalked := apply_walked hknown base
  generalize overrides.apply base = applied at hwalked ⊢
  cases hwalked with
  | all => rfl
  | upTo key value fault options found refused merged => exact absurd (refuses_of_error found refused) (h _)

theorem applyNamed_eq_ok_iff {options : ActorOptions Q} : (∃ changed, applyNamed options key.text value = .ok changed)
    ↔ ∃ content, value.Says key content := by
  simp only [applyNamed_text, except_map_eq_ok, OptionValue.contentFor_eq_ok]
  exact ⟨fun ⟨_, content, h, _⟩ => ⟨content, h⟩, fun ⟨content, h⟩ => ⟨_, content, h, rfl⟩⟩

/-- An option has its place. -/
theorem applyNamed_ne_noSuchOption (options : ActorOptions Q) (key : OptionKey) (value : OptionValue Q) :
    applyNamed options key.text value ≠ .error .noSuchOption := by
  rw [applyNamed_text]
  intro h
  cases hcontent : value.contentFor key with
  | ok content => rw [hcontent] at h; cases h
  | error fault =>
    rw [hcontent] at h
    cases h
    exact OptionValue.contentFor_ne_noSuchOption hcontent

theorem bad_ne_noSuchOption (overrides : Overrides Q) (base : ActorOptions Q) (name : String) :
    (overrides.apply base).bad ≠ some ⟨name, .noSuchOption⟩ := by
  refine apply_cases (P := fun applied => applied.bad ≠ some ⟨name, .noSuchOption⟩) (fun unknown _ h => ?_)
    fun applied hwalked h => ?_
  · cases h
  · cases hwalked with
    | all => cases h
    | upTo key value fault options found refused merged =>
      cases h
      exact OptionValue.contentFor_ne_noSuchOption refused

/-- **Overrides are applied key by key, in byte order.** A name that is no option's is told before anything is
applied, the least one, and the options are unchanged whatever else is wrong. Else the least name whose value
says nothing for its option is told, and just what lesser names say is in place. Else all that is said is in
place, and what is not named is as it was. Whether a value is accepted depends on its option and on itself
alone, and every option has its place: it is never said that there is none. -/
theorem apply_settled (overrides : Overrides Q) (base : ActorOptions Q) :
    let applied := overrides.apply base
    ((∃ name, overrides.Foreign name) →
        ∃ name, LeastName overrides.Foreign name ∧ applied = ⟨base, some ⟨name, .unknownKey⟩⟩)
      ∧ ((∀ name, ¬overrides.Foreign name) → (∃ name, overrides.Refuses name) →
        ∃ name fault, LeastName overrides.Refuses name ∧ applied.bad = some ⟨name, fault⟩
          ∧ Merges (saidBefore name overrides.valueAt) base applied.options)
      ∧ ((∀ name, ¬overrides.Foreign name) → (∀ name, ¬overrides.Refuses name) →
        applied.bad = none ∧ Merges overrides.valueAt base applied.options)
      ∧ (∀ (options : ActorOptions Q) (key : OptionKey) (value : OptionValue Q),
        ((∃ changed, applyNamed options key.text value = .ok changed) ↔ ∃ content, value.Says key content)
          ∧ applyNamed options key.text value ≠ .error .noSuchOption)
      ∧ ∀ name, applied.bad ≠ some ⟨name, .noSuchOption⟩ := by
  intro applied
  refine ⟨fun hforeign => apply_of_foreign hforeign base,
    fun hknown hrefused => apply_of_refuses hknown hrefused base, fun hknown haccepted => ?_,
    fun options key value => ⟨applyNamed_eq_ok_iff, applyNamed_ne_noSuchOption options key value⟩,
    bad_ne_noSuchOption overrides base⟩
  have hbad := apply_of_accepts hknown haccepted base
  exact ⟨hbad, merges_of_bad_eq_none hbad⟩

/-- A typing error is told before a bad value, a bad value leaves lesser names applied, and without either all
is applied: whole numbers count as quantities and an option is cleared. -/
theorem apply_settled_thrice :
    let base : ActorOptions Rat := { ActorOptions.bare with numGpus := 1, name := some "worker" }
    let limited : Overrides Rat :=
      ((NameMap.empty.insert "num_cpus" (.whole 4)).insert "max_concurrency" (.whole 0)).insert "lifetime"
        (.text "detached")
    let mistyped : Overrides Rat := limited.insert "num_cpu" (.whole 4)
    let usable : Overrides Rat := (NameMap.empty.insert "num_cpus" (.whole 4)).insert "name" .unset
    mistyped.apply base = ⟨base, some ⟨"num_cpu", .unknownKey⟩⟩
      ∧ ((limited.apply base).bad = some ⟨"max_concurrency", .outOfRange 0⟩
        ∧ (limited.apply base).options.lifetime = some .detached ∧ (limited.apply base).options.numCpus = 0)
      ∧ (usable.apply base).bad = none ∧ (usable.apply base).options.numCpus = 4
        ∧ (usable.apply base).options.name = none ∧ (usable.apply base).options.numGpus = 1 := by
  intro base limited mistyped usable
  have hlimited : ∀ name, ¬limited.Foreign name := unknownKey?_eq_none.1 (by decide +kernel)
  have husable : ∀ name, ¬usable.Foreign name := unknownKey?_eq_none.1 (by decide +kernel)
  refine ⟨?_, ?_, ?_⟩
  · have hforeign : ∃ name, mistyped.Foreign name :=
      ⟨"num_cpu", by decide +kernel, fun ⟨key, hkey⟩ => by cases key <;> exact absurd hkey (by decide)⟩
    obtain ⟨name, -, happlied⟩ := (apply_settled mistyped base).1 hforeign
    have hbad : (mistyped.apply base).bad = some ⟨"num_cpu", .unknownKey⟩ := rfl
    rw [happlied] at hbad
    cases hbad
    exact happlied
  · have hrefused : limited.valueAt .maxConcurrency = some (.whole 0) := rfl
    obtain ⟨name, fault, -, hbad, hmerges⟩ :=
      (apply_settled limited base).2.1 hlimited ⟨_, refuses_of_error hrefused rfl⟩
    have hfault : (limited.apply base).bad = some ⟨"max_concurrency", .outOfRange 0⟩ := rfl
    refine ⟨hfault, ?_⟩
    rw [hbad] at hfault
    cases hfault
    have hbefore : octets "lifetime" < octets "max_concurrency" := lt_iff_octets.1 (by decide)
    have hafter : ¬octets "num_cpus" < octets "max_concurrency" := fun h => absurd (lt_iff_octets.2 h) (by decide)
    have hlifetime := hmerges.named .lifetime (.text "detached") (if_pos hbefore)
    have hcpus := hmerges.others .numCpus (if_neg hafter)
    have hdetached : (OptionValue.text "detached" : OptionValue Rat).Says .lifetime (some .detached) := rfl
    exact ⟨hlifetime.unique hdetached, hcpus.trans Quantity.zero_rat⟩
  · have haccepted : ∀ name, ¬usable.Refuses name := fun name h => by
      obtain ⟨least, fault, -, hbad, -⟩ := apply_of_refuses husable ⟨name, h⟩ base
      have hnone : (usable.apply base).bad = none := Option.isNone_iff_eq_none.1 (by decide +kernel)
      rw [hbad] at hnone
      cases hnone
    obtain ⟨hbad, hmerges⟩ := (apply_settled usable base).2.2.1 husable haccepted
    have hcpus := hmerges.named .numCpus (.whole 4) rfl
    have hname := hmerges.named .name .unset rfl
    have hfour : (OptionValue.whole 4 : OptionValue Rat).Says .numCpus 4 :=
      ⟨.inr ⟨4, rfl, rfl⟩, rfl, by decide +kernel⟩
    have hcleared : (OptionValue.unset : OptionValue Rat).Says .name none := rfl
    exact ⟨hbad, hcpus.unique hfour, hname.unique hcleared, hmerges.others .numGpus rfl⟩

end Overrides

end ActorPlacement
