import ActorPlacement.Options.Basic

/-!
# Options by their keys

Every key has a type of contents. `ActorOptions.get` reads what options hold under a key and `ActorOptions.set`
puts something else there; options are what they hold under their keys (`ActorOptions.ext_get`). So what is
done to options key by key is told by what becomes of each content.
-/

namespace ActorPlacement

namespace OptionKey

/-- What options hold under a key. -/
abbrev Content (Q : Type) [Quantity Q] : OptionKey → Type
  | numCpus | numGpus => Q
  | resources => Option (Bundle Q)
  | maxConcurrency => Option UInt32
  | name | nameSpace => Option String
  | lifetime => Option Lifetime
  | placementGroup => Option (Handle Q)

/-- A text that names an option. -/
def Named (s : String) : Prop := ∃ key : OptionKey, key.text = s

theorem text_injective : Function.Injective OptionKey.text := by
  intro key other h
  have hread := congrArg ofText? h
  rw [ofText?_text, ofText?_text] at hread
  exact Option.some.inj hread

theorem ofText?_eq_some_iff {s : String} {key : OptionKey} : ofText? s = some key ↔ s = key.text := by
  constructor
  · intro h
    have hfound := List.find?_some h
    simpa using (beq_iff_eq.1 hfound).symm
  · rintro rfl
    exact ofText?_text key

theorem isNone_ofText?_iff {s : String} : (ofText? s).isNone = true ↔ ¬Named s := by
  rw [Option.isNone_iff_eq_none, Option.eq_none_iff_forall_ne_some, Named, not_exists]
  refine forall_congr' fun key => not_congr ?_
  rw [ofText?_eq_some_iff, eq_comm]

end OptionKey

namespace ActorOptions

variable {Q : Type} [Quantity Q] {o p : ActorOptions Q} {key other : OptionKey}

/-- What the options hold under a key. -/
def get (o : ActorOptions Q) : (key : OptionKey) → key.Content Q
  | .numCpus => o.numCpus
  | .numGpus => o.numGpus
  | .resources => o.resources
  | .maxConcurrency => o.maxConcurrency
  | .name => o.name
  | .nameSpace => o.nameSpace
  | .lifetime => o.lifetime
  | .placementGroup => o.placementGroup

/-- The options with something else under a key. -/
def set (o : ActorOptions Q) : (key : OptionKey) → key.Content Q → ActorOptions Q
  | .numCpus, x => { o with numCpus := x }
  | .numGpus, x => { o with numGpus := x }
  | .resources, x => { o with resources := x }
  | .maxConcurrency, x => { o with maxConcurrency := x }
  | .name, x => { o with name := x }
  | .nameSpace, x => { o with nameSpace := x }
  | .lifetime, x => { o with lifetime := x }
  | .placementGroup, x => { o with placementGroup := x }

@[simp] theorem get_set_self (o : ActorOptions Q) (key : OptionKey) (x : key.Content Q) :
    (o.set key x).get key = x := by
  cases key <;> rfl

theorem get_set_of_ne (o : ActorOptions Q) (x : key.Content Q) (h : key ≠ other) :
    (o.set key x).get other = o.get other := by
  cases key <;> cases other <;> first | rfl | exact absurd rfl h

/-- Options that hold the same under every key are equal. -/
theorem ext_get (h : ∀ key, o.get key = p.get key) : o = p := by
  obtain ⟨cpus, gpus, resources, limit, name, nameSpace, lifetime, group⟩ := o
  obtain rfl : cpus = p.numCpus := h .numCpus
  obtain rfl : gpus = p.numGpus := h .numGpus
  obtain rfl : resources = p.resources := h .resources
  obtain rfl : limit = p.maxConcurrency := h .maxConcurrency
  obtain rfl : name = p.name := h .name
  obtain rfl : nameSpace = p.nameSpace := h .nameSpace
  obtain rfl : lifetime = p.lifetime := h .lifetime
  obtain rfl : group = p.placementGroup := h .placementGroup
  rfl

end ActorOptions

end ActorPlacement
