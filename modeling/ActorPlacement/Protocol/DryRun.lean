import ActorPlacement.Config.Build
import ActorPlacement.Protocol.Resolve

/-!
# Resolving a class of a configuration

A dry run resolves the options of one declared class, shows the launch parameters, and gives back
the reservation that they carry.
-/

namespace ActorPlacement

variable {Q : Type}

/-- How a dry run failed. Only a failure to resolve is told with the class that it was for. -/
structure DryRunFailure (Q : Type) [Quantity Q] where
  failure : Failure Q
  resolving : Option String := none

/-- The texts of a failure, the outermost first. -/
def DryRunFailure.chain [WrittenQuantity Q] (f : DryRunFailure Q) : List String :=
  match f.resolving with
  | some cls => ("resolving actor class `" ++ cls ++ "`") :: f.failure.chain
  | none => f.failure.chain

/-- The class and the overrides of a dry run. -/
def dryRunParts [WrittenQuantity Q] (config : Config Q) (cls : String) (sets : List String) :
    Except (Failure Q) (ActorClass Q × Overrides Q) :=
  match config.class? cls with
  | .error failure => .error failure
  | .ok declared =>
    match Overrides.assignAll NameMap.empty sets with
    | .error bad => .error (.option bad)
    | .ok overrides => .ok (declared, overrides)

/-- Resolve a declared class under some assignments and answer the launch parameters by name. -/
def dryRun [WrittenQuantity Q] (config : Config Q) (cls : String) (sets : List String) :
    Protocol Q (Except (DryRunFailure Q) (NameMap (Tree Q))) :=
  match dryRunParts config cls sets with
  | .error failure => pure (.error { failure })
  | .ok (declared, overrides) => do
    match ← resolve declared overrides with
    | .error failure => return .error { failure, resolving := some cls }
    | .ok resolved =>
      releaseHandle resolved.options.placementGroup
      return .ok resolved.options.toLaunchParams.toValue

end ActorPlacement
