import ActorPlacement.Cluster.Basic
import ActorPlacement.Config.Basic

/-!
# What a configuration says

Classes, timeouts and a cluster as a configuration declares them, or the first fault in it.
-/

namespace ActorPlacement

variable {Q : Type} [Quantity Q]

/-- Read a duration that stands in some field. -/
def durationIn (field raw : String) : Except (ConfigFault Q) Duration :=
  match Duration.ofText? raw with
  | some d => .ok d
  | none => .error (.badDuration field raw)

/-- The spec of a placement. The strategy is read first, then the timeout, and then the parts are put
together. -/
def PlacementSection.toSpec (p : PlacementSection Q) (defaultTimeout : Duration) :
    Except (Failure Q) (PlacementSpec Q) := do
  let strategy ←
    match p.strategy with
    | some raw => (Strategy.ofText raw).mapError Failure.spec
    | none => .ok PlacementSpec.defaultStrategy
  let timeout ←
    match p.timeout with
    | some raw => (durationIn "placement.timeout" raw).mapError Failure.config
    | none => .ok defaultTimeout
  (PlacementSpec.make p.bundles strategy timeout).mapError Failure.spec

/-- Read a lifetime that may be unset. -/
def lifetimeOfSection : Option String → Except (Failure Q) (Option Lifetime)
  | none => .ok none
  | some raw =>
    ((underKey OptionKey.lifetime.text (Lifetime.ofText raw)).map some).mapError Failure.option

/-- The default options of a class with some lifetime. -/
def ClassSection.defaults (c : ClassSection Q) (lifetime : Option Lifetime) : ActorOptions Q where
  numCpus := c.numCpus.getD ActorClass.defaultCpus
  numGpus := c.numGpus.getD Quantity.zero
  resources := c.resources
  maxConcurrency := c.maxConcurrency
  name := c.name
  nameSpace := c.nameSpace
  lifetime := lifetime

/-- The class that a section declares. -/
def ClassSection.toClass (c : ClassSection Q) (defaultTimeout : Duration) :
    Except (Failure Q) (ActorClass Q) := do
  let lifetime ← lifetimeOfSection c.lifetime
  let defaults := c.defaults lifetime
  defaults.validate.mapError Failure.option
  match c.placement with
  | none => return { defaults }
  | some placement => return { defaults, placement := some (← placement.toSpec defaultTimeout) }

/-- A fault of the configuration found in a class names the class. -/
def Failure.inClass (name : String) : Failure Q → Failure Q
  | .config fault => .config (.inClass name fault)
  | other => other

namespace Config

/-- How long to wait when a placement does not say. -/
def defaultTimeout (c : Config Q) : Except (ConfigFault Q) Duration :=
  match c.cluster.defaultTimeout with
  | some raw => durationIn "cluster.default_timeout" raw
  | none => .ok PlacementSpec.defaultTimeout

/-- The class declared under a name. -/
def class? (c : Config Q) (name : String) : Except (Failure Q) (ActorClass Q) :=
  match c.classes.find? name with
  | none => .error (.config (.unknownClass name))
  | some cls => do
    let timeout ← c.defaultTimeout.mapError Failure.config
    (cls.toClass timeout).mapError (Failure.inClass name)

/-- The first node whose resources have a fault. -/
def badNode? (c : ClusterSection Q) : Option (ConfigFault Q) :=
  c.nodes.findSome? fun n => (Bundle.fault? n.resources).map (ConfigFault.badNode n.id)

/-- Check the resources of one node. -/
def checkNode (n : NodeSection Q) : Except (Failure Q) Unit :=
  match Bundle.fault? n.resources with
  | some fault => .error (.config (.badNode n.id fault))
  | none => .ok ()

/-- Check every node and every class; answer the names of the classes. -/
def validate (c : Config Q) : Except (Failure Q) (List String) := do
  c.cluster.nodes.forM checkNode
  c.classes.names.forM fun name => discard (c.class? name)
  return c.classes.names

end Config

/-- The cluster of the declared nodes. -/
def Cluster.ofSection (c : ClusterSection Q) : Except (Failure Q) (Cluster Q) :=
  match Config.badNode? c with
  | some fault => .error (.config fault)
  | none => .ok (Cluster.ofNodes (c.nodes.map fun n => Node.idle n.id n.resources n.draining))

end ActorPlacement
