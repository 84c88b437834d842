import ActorPlacement.Protocol.Construct

/-!
# Actors for trials

Two types of actors to construct in a simulation. A probe can be made to fail on creation or while it
warms up, and knows whether it was warmed up; a plain actor does not warm up.
-/

namespace ActorPlacement

/-- An actor for trials. -/
inductive TrialActor where
  | probe (warmed : Bool)
  | plain
  deriving DecidableEq, Repr

/-- What a trial actor is made to report. -/
structure TrialFaults where
  create : Option InitFailure := none
  warmUp : Option InitFailure := none

/-- Report a failure if there is one to report. -/
def reporting {α : Type} (failure : Option InitFailure) (value : α) : Except InitFailure α :=
  match failure with
  | some failure => .error failure
  | none => .ok value

variable {Q : Type} [Quantity Q]

/-- The type of probes. -/
def probeType (cls : ActorClass Q) (faults : TrialFaults) : ActorType Q TrialActor where
  name := "Probe"
  cls := cls
  create _ := reporting faults.create (.probe false)
  warmUp _ := reporting faults.warmUp (.probe true)

/-- The type of plain actors. -/
def plainType (cls : ActorClass Q) (faults : TrialFaults) : ActorType Q TrialActor where
  name := "Plain"
  cls := cls
  create _ := reporting faults.create .plain
  warmUp := .ok

end ActorPlacement
