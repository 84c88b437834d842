import ActorPlacement.Overrides.Value

/-!
# Overrides of actor options

Overrides are values under option names. They are read from `key=value` texts or from a JSON object,
and applied name by name in ascending order. An unknown name is found before anything is applied.
-/

namespace ActorPlacement

/-- Values under option names. -/
abbrev Overrides (Q : Type) [Quantity Q] := NameMap (OptionValue Q)

namespace Overrides

variable {Q : Type}

section Apply

variable [Quantity Q]

/-- Whether the caller brings a reservation of their own. -/
def suppliesPlacement (overrides : Overrides Q) : Bool :=
  match overrides.find? OptionKey.placementGroup.text with
  | some (.handle _) => true
  | _ => false

/-- The quantity of processors that a value says. -/
def quantityOf : OptionValue Q → Except (OptionFault Q) Q
  | .real x => checked (quantityFault? x) x
  | .whole n => checked (quantityFault? (Quantity.ofInt n : Q)) (Quantity.ofInt n)
  | other => .error (.wrongKind .number other.kind)

/-- The resources that a value says. -/
def resourcesOf : OptionValue Q → Except (OptionFault Q) (Option (Bundle Q))
  | .resources bundle => checked (resourcesFault? bundle) (some bundle)
  | .unset => .ok none
  | other => .error (.wrongKind .resources other.kind)

/-- The limit of concurrency that a value says. -/
def concurrencyOf : OptionValue Q → Except (OptionFault Q) (Option UInt32)
  | .whole n =>
    if 0 < n ∧ n < UInt32.size then .ok (some (UInt32.ofNat n.toNat)) else .error (.outOfRange n)
  | .unset => .ok none
  | other => .error (.wrongKind .positive other.kind)

/-- The text that a value says. -/
def textOf : OptionValue Q → Except (OptionFault Q) (Option String)
  | .text s => .ok (some s)
  | .unset => .ok none
  | other => .error (.wrongKind .text other.kind)

/-- The lifetime that a value says. -/
def lifetimeOf (value : OptionValue Q) : Except (OptionFault Q) (Option Lifetime) :=
  match textOf value with
  | .ok none => .ok none
  | .ok (some s) => (Lifetime.ofText s).map some
  | .error fault => .error fault

/-- The reservation that a value says. -/
def handleOf : OptionValue Q → Except (OptionFault Q) (Option (Handle Q))
  | .handle h => .ok (some h)
  | .unset => .ok none
  | other => .error (.wrongKind .handle other.kind)

/-- Put one value in place of an option. -/
def applyOne (options : ActorOptions Q) (key : OptionKey) (value : OptionValue Q) :
    Except (OptionFault Q) (ActorOptions Q) :=
  match key with
  | .numCpus => (quantityOf value).map fun x => { options with numCpus := x }
  | .numGpus => (quantityOf value).map fun x => { options with numGpus := x }
  | .resources => (resourcesOf value).map fun x => { options with resources := x }
  | .maxConcurrency => (concurrencyOf value).map fun x => { options with maxConcurrency := x }
  | .name => (textOf value).map fun x => { options with name := x }
  | .nameSpace => (textOf value).map fun x => { options with nameSpace := x }
  | .lifetime => (lifetimeOf value).map fun x => { options with lifetime := x }
  | .placementGroup => (handleOf value).map fun x => { options with placementGroup := x }

/-- Put one value in place of the option of a name. -/
def applyNamed (options : ActorOptions Q) (name : String) (value : OptionValue Q) :
    Except (OptionFault Q) (ActorOptions Q) :=
  match name with
  | "num_cpus" => applyOne options .numCpus value
  | "num_gpus" => applyOne options .numGpus value
  | "resources" => applyOne options .resources value
  | "max_concurrency" => applyOne options .maxConcurrency value
  | "name" => applyOne options .name value
  | "namespace" => applyOne options .nameSpace value
  | "lifetime" => applyOne options .lifetime value
  | "placement_group" => applyOne options .placementGroup value
  | _ => .error .noSuchOption

/-- Options after overrides were applied, and what stopped that, if anything did. -/
structure Applied (Q : Type) [Quantity Q] where
  options : ActorOptions Q
  bad : Option (BadOption Q)

/-- Apply entries in their order up to the first that has no usable value. -/
def applyEntries : List (String × OptionValue Q) → ActorOptions Q → Applied Q
  | [], options => ⟨options, none⟩
  | (name, value) :: rest, options =>
    match applyNamed options name value with
    | .ok options => applyEntries rest options
    | .error fault => ⟨options, some ⟨name, fault⟩⟩

/-- The least name that is no option. -/
def unknownKey? (overrides : Overrides Q) : Option String :=
  overrides.names.find? fun name => (OptionKey.ofText? name).isNone

/-- Apply all overrides. An unknown name changes nothing; an unusable value leaves the options of
lesser names applied. -/
def apply (overrides : Overrides Q) (options : ActorOptions Q) : Applied Q :=
  match overrides.unknownKey? with
  | some name => ⟨options, some ⟨name, .unknownKey⟩⟩
  | none => applyEntries overrides.entries options

end Apply

section Read

variable [WrittenQuantity Q]

/-- The overrides that the entries of a JSON object say. -/
def ofEntries : List (String × Tree Q) → Except (BadOption Q) (Overrides Q)
  | entries => go NameMap.empty entries
where
  /-- Insert the entries one after the other. -/
  go (overrides : Overrides Q) : List (String × Tree Q) → Except (BadOption Q) (Overrides Q)
    | [] => .ok overrides
    | (name, value) :: rest =>
      match underKey name (OptionValue.ofTree value) with
      | .ok value => go (overrides.insert name value) rest
      | .error bad => .error bad

/-- The overrides that a JSON object says, if the text is one. -/
def ofJson? (s : String) : Option (Except (BadOption Q) (Overrides Q)) :=
  match Json.readValue? s with
  | some (.table entries) => some (ofEntries entries)
  | _ => none

/-- The value that a text says: what it says as JSON if it is JSON, else the text itself. -/
def valueOfText (text : String) : Except (OptionFault Q) (OptionValue Q) :=
  match Json.readValue? text with
  | some tree => OptionValue.ofTree tree
  | none => .ok (.text text)

/-- Read `key=value` and put the value under the key. Blanks around either do not count. -/
def assign (overrides : Overrides Q) (raw : String) : Except (BadOption Q) (Overrides Q) :=
  match cutAt? '=' raw with
  | none => .error ⟨raw, .notAssignment⟩
  | some (key, value) =>
    (underKey (trimmed key) (valueOfText (trimmed value))).map (overrides.insert (trimmed key))

/-- Read several assignments, each over those before it. -/
def assignAll (overrides : Overrides Q) (raws : List String) : Except (BadOption Q) (Overrides Q) :=
  raws.foldlM assign overrides

end Read

end Overrides

end ActorPlacement
