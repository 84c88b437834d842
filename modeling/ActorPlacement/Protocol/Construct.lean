import ActorPlacement.Protocol.Resolve

/-!
# Constructing actors

A backend that is not running refuses before anything is reserved. If the actor cannot be built, the
reservation that was made for it is given back; one that was brought along is left alone.
-/

namespace ActorPlacement

variable {Q : Type} [Quantity Q] {A : Type}

/-- A type of actors: its name, its class, how an actor is created, and what it does before it is
handed out. -/
structure ActorType (Q : Type) [Quantity Q] (A : Type) where
  name : String
  cls : ActorClass Q
  create : LaunchParams Q → Except InitFailure A
  warmUp : A → Except InitFailure A

/-- An actor that was built, with its number and the parameters it was built with. -/
structure BuiltActor (Q : Type) [Quantity Q] (A : Type) where
  number : Nat
  typeName : String
  params : LaunchParams Q
  actor : A

/-- Create and warm up an actor with the given parameters. -/
def ActorType.start (type : ActorType Q A) (params : LaunchParams Q) : Except InitFailure A :=
  (type.create params).bind type.warmUp

/-- Build an actor on the backend. -/
def materialize (type : ActorType Q A) (params : LaunchParams Q) :
    Protocol Q (Except (Failure Q) (BuiltActor Q A)) := do
  if ← Protocol.backendUp then
    match type.start params with
    | .ok actor =>
      let number ← Protocol.nextActor
      return .ok { number, typeName := type.name, params, actor }
    | .error failure => return .error (.actor failure)
  else return .error (.backend .materialize)

/-- Surroundings with a backend that numbers the actors it builds one after the other, and counts them. -/
def countingActors {σ : Type} (others : Protocol.Surroundings Q σ) : Protocol.Surroundings Q (σ × Nat)
  | .nextActor, (s, built) => (built + 1, s, built + 1)
  | request, (s, built) => ((others request s).1, (others request s).2, built)

/-- Construct an actor: resolve its options, then build it. -/
def construct (type : ActorType Q A) (overrides : Overrides Q) :
    Protocol Q (Except (Failure Q) (BuiltActor Q A)) := do
  if ← Protocol.backendUp then
    match ← resolve type.cls overrides with
    | .error failure => return .error failure
    | .ok resolved =>
      match ← materialize type resolved.options.toLaunchParams with
      | .ok built => return .ok built
      | .error failure =>
        releaseHandle resolved.reservedGroup
        return .error failure
  else return .error (.backend (.construct type.name))

/-- Give back the reservation that an actor was built with, if any. -/
def releaseActor (built : BuiltActor Q A) : Protocol Q Unit := releaseHandle built.params.placementGroup

end ActorPlacement
