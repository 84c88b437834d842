import ActorPlacement.Handle
import ActorPlacement.Json.Printer

/-!
# Option keys, and what can be wrong with an option
-/

namespace ActorPlacement

/-- The options of an actor. -/
inductive OptionKey where
  | numCpus
  | numGpus
  | resources
  | maxConcurrency
  | name
  | nameSpace
  | lifetime
  | placementGroup
  deriving DecidableEq, Repr

namespace OptionKey

/-- Every option, in the order in which messages list them. -/
def all : List OptionKey :=
  [numCpus, numGpus, resources, maxConcurrency, name, nameSpace, lifetime, placementGroup]

/-- The written name of an option. -/
def text : OptionKey → String
  | numCpus => "num_cpus"
  | numGpus => "num_gpus"
  | resources => "resources"
  | maxConcurrency => "max_concurrency"
  | name => "name"
  | nameSpace => "namespace"
  | lifetime => "lifetime"
  | placementGroup => "placement_group"

/-- The option of that very name. -/
def ofText? (s : String) : Option OptionKey := all.find? fun key => key.text == s

theorem mem_all (key : OptionKey) : key ∈ all := by cases key <;> decide

theorem ofText?_text (key : OptionKey) : ofText? key.text = some key := by cases key <;> decide

end OptionKey

/-- The kinds of value that an override may carry. -/
inductive ValueKind where
  | real
  | whole
  | text
  | resources
  | handle
  | unset
  deriving DecidableEq, Repr

/-- A kind as messages name it. -/
def ValueKind.message : ValueKind → String
  | real => "float"
  | whole => "integer"
  | text => "string"
  | resources => "resource mapping"
  | handle => "placement handle"
  | unset => "unset"

/-- What an option asks its value to be. -/
inductive Wanted where
  | number
  | resources
  | positive
  | text
  | handle
  deriving DecidableEq, Repr

/-- A demand as messages name it. -/
def Wanted.message : Wanted → String
  | number => "a number"
  | resources => "a resource mapping"
  | positive => "a positive integer"
  | text => "a string"
  | handle => "a placement handle"

/-- Why an option has no usable value. -/
inductive OptionFault (Q : Type) [Quantity Q] where
  | unknownKey
  /-- There is no option of the name to put a value in place of. -/
  | noSuchOption
  | notAssignment
  | negative (quantity : Q)
  | badResources (fault : BundleFault Q)
  | zeroConcurrency
  | outOfRange (value : Int)
  | unknownLifetime (text : String)
  | wrongKind (wanted : Wanted) (found : ValueKind)
  | unsupported (value : Tree Q)
  | notNumber (resource : String)
  | notCovering (handle : Handle Q) (required : PlacementSpec Q)
  | stated (text : String)

/-- The words for a fault in an option. -/
def OptionFault.message {Q : Type} [WrittenQuantity Q] : OptionFault Q → String
  | unknownKey => "unknown option; expected one of " ++ joinedWith ", " (OptionKey.all.map OptionKey.text)
  | noSuchOption => "unknown option"
  | notAssignment => "expected KEY=VALUE"
  | negative quantity => "expected a non-negative number, got " ++ WrittenQuantity.plain quantity
  | badResources fault => fault.message
  | zeroConcurrency => "must be a positive integer"
  | outOfRange value => "must be a positive integer, got " ++ toString value
  | unknownLifetime text => "unknown lifetime `" ++ text ++ "` (expected `detached` or `non_detached`)"
  | wrongKind wanted found => "expected " ++ wanted.message ++ ", got " ++ found.message
  | unsupported value => "unsupported value " ++ Json.compact value
  | notNumber resource => "resource `" ++ resource ++ "` must be a number"
  | notCovering handle required =>
    "reservation " ++ handle.token.text ++ " (" ++ handle.spec.text
      ++ ") does not cover the class requirement " ++ required.text
  | stated text => text

/-- A fault and the key it was found under. -/
structure BadOption (Q : Type) [Quantity Q] where
  key : String
  fault : OptionFault Q

end ActorPlacement
