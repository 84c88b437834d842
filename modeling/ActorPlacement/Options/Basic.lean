import ActorPlacement.Options.Fault

/-!
# Actor options

The options that one actor is built with, the launch parameters made of them, and the class of an
actor: default options and the placement that it requires.
-/

namespace ActorPlacement

/-- Whether an actor outlives the handle that created it. -/
inductive Lifetime where
  | detached
  | nonDetached
  deriving DecidableEq, Repr

namespace Lifetime

/-- The written name of a lifetime. -/
def name : Lifetime → String
  | detached => "detached"
  | nonDetached => "non_detached"

/-- The lifetime of that very name. -/
def ofName? (s : String) : Option Lifetime := [detached, nonDetached].find? fun l => l.name == s

theorem ofName?_name (l : Lifetime) : ofName? l.name = some l := by cases l <;> decide

/-- Read a lifetime. -/
def ofText {Q : Type} [Quantity Q] (s : String) : Except (OptionFault Q) Lifetime :=
  match ofName? s with
  | some l => .ok l
  | none => .error (.unknownLifetime s)

end Lifetime

/-- The options of one actor. -/
structure ActorOptions (Q : Type) [Quantity Q] where
  numCpus : Q
  numGpus : Q
  resources : Option (Bundle Q) := none
  maxConcurrency : Option UInt32 := none
  name : Option String := none
  nameSpace : Option String := none
  lifetime : Option Lifetime := none
  placementGroup : Option (Handle Q) := none

/-- Answer `value` if nothing is wrong. -/
def checked {Q α : Type} [Quantity Q] (fault : Option (OptionFault Q)) (value : α) :
    Except (OptionFault Q) α :=
  match fault with
  | some fault => .error fault
  | none => .ok value

/-- Name the key under which a fault was found. -/
def underKey {Q α : Type} [Quantity Q] (key : String) : Except (OptionFault Q) α → Except (BadOption Q) α
  | .ok value => .ok value
  | .error fault => .error ⟨key, fault⟩

/-- A quantity of processors has to be finite and not negative. -/
def quantityFault? {Q : Type} [Quantity Q] (value : Q) : Option (OptionFault Q) :=
  if Quantity.isFinite value && Quantity.atLeast value Quantity.zero then none
  else some (.negative value)

/-- A bundle of resources has to be one that can be asked for. -/
def resourcesFault? {Q : Type} [Quantity Q] (bundle : Bundle Q) : Option (OptionFault Q) :=
  (Bundle.fault? bundle).map .badResources

/-- Check one quantity of processors. -/
def checkQuantity {Q : Type} [Quantity Q] (key : String) (value : Q) : Except (BadOption Q) Unit :=
  underKey key (checked (quantityFault? value) ())

/-- Parameters that a backend gets for one actor. -/
structure LaunchParams (Q : Type) [Quantity Q] where
  numCpus : Q
  numGpus : Q
  resources : Option (Bundle Q)
  maxConcurrency : Option UInt32
  name : Option String
  nameSpace : Option String
  lifetime : Option Lifetime
  placementGroup : Option (Handle Q)

namespace ActorOptions

variable {Q : Type} [Quantity Q]

/-- No processors and nothing set. -/
def bare : ActorOptions Q := { numCpus := Quantity.zero, numGpus := Quantity.zero }

instance : Inhabited (ActorOptions Q) := ⟨bare⟩

/-- Equal field by field; handles count as equal when their tokens are. -/
instance : BEq (ActorOptions Q) where
  beq a b :=
    a.numCpus == b.numCpus && a.numGpus == b.numGpus && a.resources == b.resources
      && a.maxConcurrency == b.maxConcurrency && a.name == b.name && a.nameSpace == b.nameSpace
      && a.lifetime == b.lifetime && a.placementGroup == b.placementGroup

/-- Check quantities and limits; the first fault counts. -/
def validate (o : ActorOptions Q) : Except (BadOption Q) Unit := do
  checkQuantity OptionKey.numCpus.text o.numCpus
  checkQuantity OptionKey.numGpus.text o.numGpus
  underKey OptionKey.resources.text (checked (o.resources.bind resourcesFault?) ())
  underKey OptionKey.maxConcurrency.text
    (checked (if o.maxConcurrency = some 0 then some .zeroConcurrency else none) ())

/-- The launch parameters: the options, with an empty bundle of resources left out. -/
def toLaunchParams (o : ActorOptions Q) : LaunchParams Q where
  numCpus := o.numCpus
  numGpus := o.numGpus
  resources := o.resources.filter fun bundle => !bundle.isEmpty
  maxConcurrency := o.maxConcurrency
  name := o.name
  nameSpace := o.nameSpace
  lifetime := o.lifetime
  placementGroup := o.placementGroup

end ActorOptions

namespace LaunchParams

variable {Q : Type} [Quantity Q]

/-- The entry of a parameter that may be left out. -/
def entry? {α : Type} (key : OptionKey) (value : Option α) (f : α → Tree Q) :
    List (String × Tree Q) :=
  match value with
  | some x => [(key.text, f x)]
  | none => []

/-- A bundle as a table. -/
def bundleTree (b : Bundle Q) : Tree Q := .table (b.entries.map fun e => (e.1, .real e.2))

/-- The parameters that are set, in their order; a handle is written as its token. -/
def entries (p : LaunchParams Q) : List (String × Tree Q) :=
  [(OptionKey.numCpus.text, .real p.numCpus), (OptionKey.numGpus.text, .real p.numGpus)]
    ++ entry? .resources p.resources bundleTree
    ++ entry? .maxConcurrency p.maxConcurrency (fun n => .whole n.toNat)
    ++ entry? .name p.name .text
    ++ entry? .nameSpace p.nameSpace .text
    ++ entry? .lifetime p.lifetime (fun l => .text l.name)
    ++ entry? .placementGroup p.placementGroup (fun h => .text h.token.text)

/-- The parameters as a table in their order. -/
def toTree (p : LaunchParams Q) : Tree Q := .table p.entries

/-- The parameters as JSON without blanks. -/
def text {Q : Type} [WrittenQuantity Q] (p : LaunchParams Q) : String := Json.compact p.toTree

/-- The parameters as a table in the order of their names. -/
def toValue (p : LaunchParams Q) : NameMap (Tree Q) := NameMap.ofList p.entries

end LaunchParams

/-- What all actors of a class have in common. -/
structure ActorClass (Q : Type) [Quantity Q] where
  defaults : ActorOptions Q
  placement : Option (PlacementSpec Q) := none

namespace ActorClass

variable {Q : Type} [Quantity Q]

/-- The processors of a class that does not say how many it needs. -/
def defaultCpus : Q := 0.5

/-- The class that says nothing. -/
def standard : ActorClass Q :=
  { defaults := { numCpus := defaultCpus, numGpus := Quantity.zero } }

end ActorClass

end ActorPlacement
