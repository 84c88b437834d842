import ActorPlacement.NameMap.Basic
import ActorPlacement.Quantity.Basic
import ActorPlacement.Text.Affix

/-!
# Resource bundles

A bundle names the resources that belong on one node and how much there is of each. A resource
that is not named counts as zero.
-/

namespace ActorPlacement

/-- Quantities under resource names. -/
abbrev Bundle (Q : Type) := NameMap Q

/-- Why a bundle cannot be asked for. -/
inductive BundleFault (Q : Type) where
  | unnamed
  | badQuantity (name : String) (quantity : Q)
  deriving DecidableEq

/-- The words for a fault in a bundle. -/
def BundleFault.message {Q : Type} [WrittenQuantity Q] : BundleFault Q → String
  | unnamed => "resource name must not be empty"
  | badQuantity name quantity =>
    "resource `" ++ name ++ "` has invalid quantity " ++ WrittenQuantity.plain quantity

namespace Bundle

variable {Q : Type}

section Arithmetic

variable [Quantity Q]

/-- The quantity of `name`, zero when absent. -/
def amount (b : Bundle Q) (name : String) : Q := (b.find? name).getD Quantity.zero

/-- Whether `have_` holds at least as much of every resource that `need` names. -/
def covers (have_ need : Bundle Q) : Bool :=
  need.entries.all fun e => Quantity.atLeast (amount have_ e.1) e.2

/-- Add one quantity to a resource. -/
def addAmount (b : Bundle Q) (name : String) (quantity : Q) : Bundle Q :=
  b.insert name (amount b name + quantity)

/-- Add every quantity of `other`. -/
def add (b other : Bundle Q) : Bundle Q :=
  other.entries.foldl (fun b e => addAmount b e.1 e.2) b

/-- Take one quantity from a resource, down to zero at most; an absent resource stays absent. -/
def takeAmount (b : Bundle Q) (name : String) (quantity : Q) : Bundle Q :=
  b.adjust name fun held => Quantity.floorAtZero (held - quantity)

/-- Take every quantity of `other`. -/
def subtract (b other : Bundle Q) : Bundle Q :=
  other.entries.foldl (fun b e => takeAmount b e.1 e.2) b

/-- The sum of some bundles, added in their order. -/
def total (bundles : List (Bundle Q)) : Bundle Q := bundles.foldl add NameMap.empty

/-- The fault of one entry. -/
def entryFault? (name : String) (quantity : Q) : Option (BundleFault Q) :=
  if name.isEmpty then some .unnamed
  else if Quantity.isValid quantity then none
  else some (.badQuantity name quantity)

/-- The fault of the first entry that has one. -/
def fault? (b : Bundle Q) : Option (BundleFault Q) :=
  b.entries.findSome? fun e => entryFault? e.1 e.2

end Arithmetic

/-- The bundle as messages write it. -/
def text [WrittenQuantity Q] (b : Bundle Q) : String :=
  "\x7b" ++ joinedWith ", " (b.entries.map fun e => e.1 ++ ": " ++ WrittenQuantity.plain e.2) ++ "\x7d"

end Bundle

/-- The first fault among some bundles, with the place of its bundle. -/
def firstBundleFault? {Q : Type} [Quantity Q] (bundles : List (Bundle Q)) :
    Option (Nat × BundleFault Q) :=
  bundles.zipIdx.findSome? fun p => (Bundle.fault? p.1).map fun fault => (p.2, fault)

end ActorPlacement
