import ActorPlacement.Overrides.Basic
import ActorPlacement.Protocol.Reserve

/-!
# Resolving the options of an actor

The defaults of the class are taken, the overrides applied, and a reservation is made if the class
requires one and none was brought along. All overrides are checked before anything is reserved.
-/

namespace ActorPlacement

variable {Q : Type} [Quantity Q]

/-- The options of one actor, and whether resolving them made the reservation that they carry. -/
structure Resolved (Q : Type) [Quantity Q] where
  options : ActorOptions Q
  reserved : Bool

/-- The reservation that resolving made, if it made one. -/
def Resolved.reservedGroup (r : Resolved Q) : Option (Handle Q) :=
  if r.reserved then r.options.placementGroup else none

/-- Resolve options for an actor of a class. -/
def resolve (cls : ActorClass Q) (overrides : Overrides Q) :
    Protocol Q (Except (Failure Q) (Resolved Q)) :=
  let applied := overrides.apply cls.defaults
  match applied.bad with
  | some bad => pure (.error (.option bad))
  | none =>
    match applied.options.placementGroup, cls.placement with
    | some handle, some required =>
      if handle.spec.covers required then pure (.ok ⟨applied.options, false⟩)
      else
        pure (.error (.option ⟨OptionKey.placementGroup.text, .notCovering handle required⟩))
    | none, some spec => do
      match ← reserve spec with
      | .ok handle => return .ok ⟨{ applied.options with placementGroup := some handle }, true⟩
      | .error failure => return .error failure
    | _, none => pure (.ok ⟨applied.options, false⟩)

end ActorPlacement
