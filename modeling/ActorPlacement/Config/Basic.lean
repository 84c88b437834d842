import ActorPlacement.Tree.Record

/-!
# Configuration documents

The sections of a configuration as they are written: durations, strategies and lifetimes are still
texts, and quantities are not checked. `Config.ofTree?` reads the sections from a document and
`Config.toTree` says how a document writes them.
-/

namespace ActorPlacement

/-- A node of the cluster. -/
structure NodeSection (Q : Type) where
  id : String
  draining : Bool
  resources : NameMap Q

/-- The cluster: how long to wait by default, and its nodes. -/
structure ClusterSection (Q : Type) where
  defaultTimeout : Option String
  nodes : List (NodeSection Q)

/-- The placement that a class requires. -/
structure PlacementSection (Q : Type) where
  strategy : Option String
  timeout : Option String
  bundles : List (NameMap Q)

/-- A class of actors. -/
structure ClassSection (Q : Type) where
  numCpus : Option Q
  numGpus : Option Q
  maxConcurrency : Option UInt32
  name : Option String
  nameSpace : Option String
  lifetime : Option String
  resources : Option (NameMap Q)
  placement : Option (PlacementSection Q)

/-- A configuration. -/
structure Config (Q : Type) where
  cluster : ClusterSection Q
  classes : NameMap (ClassSection Q)

namespace NodeSection

variable {Q : Type} [Quantity Q]

/-- Read a node. -/
def ofTree? (spare : SpareItems) (tree : Tree Q) : Option (NodeSection Q) := do
  let r ← Record.ofTree? spare ["id", "draining", "resources"] tree
  let id ← r.required? 0 Tree.text?
  let draining ← r.defaulted? 1 false Tree.flag?
  let resources ← r.required? 2 (Tree.map? Tree.quantity?)
  return { id, draining, resources }

end NodeSection

namespace ClusterSection

variable {Q : Type} [Quantity Q]

/-- The cluster of which nothing is said. -/
def empty : ClusterSection Q := { defaultTimeout := none, nodes := [] }

/-- Read a cluster. -/
def ofTree? (spare : SpareItems) (tree : Tree Q) : Option (ClusterSection Q) := do
  let r ← Record.ofTree? spare ["default_timeout", "nodes"] tree
  let defaultTimeout ← r.optional? 0 Tree.text?
  let nodes ← r.defaulted? 1 [] (Tree.list? (NodeSection.ofTree? spare))
  return { defaultTimeout, nodes }

end ClusterSection

namespace PlacementSection

variable {Q : Type} [Quantity Q]

/-- Read a placement. -/
def ofTree? (spare : SpareItems) (tree : Tree Q) : Option (PlacementSection Q) := do
  let r ← Record.ofTree? spare ["strategy", "timeout", "bundles"] tree
  let strategy ← r.optional? 0 Tree.text?
  let timeout ← r.optional? 1 Tree.text?
  let bundles ← r.required? 2 (Tree.list? (Tree.map? Tree.quantity?))
  return { strategy, timeout, bundles }

end PlacementSection

namespace ClassSection

variable {Q : Type} [Quantity Q]

/-- The fields of a class. -/
def fields : List String :=
  ["num_cpus", "num_gpus", "max_concurrency", "name", "namespace", "lifetime", "resources", "placement"]

/-- Read a class. -/
def ofTree? (spare : SpareItems) (tree : Tree Q) : Option (ClassSection Q) := do
  let r ← Record.ofTree? spare fields tree
  let numCpus ← r.optional? 0 Tree.quantity?
  let numGpus ← r.optional? 1 Tree.quantity?
  let maxConcurrency ← r.optional? 2 Tree.word32?
  let name ← r.optional? 3 Tree.text?
  let nameSpace ← r.optional? 4 Tree.text?
  let lifetime ← r.optional? 5 Tree.text?
  let resources ← r.optional? 6 (Tree.map? Tree.quantity?)
  let placement ← r.optional? 7 (PlacementSection.ofTree? spare)
  return { numCpus, numGpus, maxConcurrency, name, nameSpace, lifetime, resources, placement }

end ClassSection

namespace Config

variable {Q : Type} [Quantity Q]

/-- Read a configuration. -/
def ofTree? (spare : SpareItems) (tree : Tree Q) : Option (Config Q) := do
  let r ← Record.ofTree? spare ["cluster", "classes"] tree
  let cluster ← r.defaulted? 0 ClusterSection.empty (ClusterSection.ofTree? spare)
  let classes ← r.defaulted? 1 NameMap.empty (Tree.map? (ClassSection.ofTree? spare))
  return { cluster, classes }

end Config

section Write

variable {Q : Type}

/-- A field that may be unset. -/
def treeOfOption {α : Type} (f : α → Tree Q) : Option α → Tree Q
  | none => .absent
  | some x => f x

/-- Quantities under names. -/
def treeOfQuantities (m : NameMap Q) : Tree Q := .table (m.map Tree.real).entries

/-- How a document writes a node. -/
def NodeSection.toTree (n : NodeSection Q) : Tree Q :=
  .table [("id", .text n.id), ("draining", .flag n.draining), ("resources", treeOfQuantities n.resources)]

/-- How a document writes a cluster. -/
def ClusterSection.toTree (c : ClusterSection Q) : Tree Q :=
  .table
    [("default_timeout", treeOfOption .text c.defaultTimeout),
      ("nodes", .list (c.nodes.map NodeSection.toTree))]

/-- How a document writes a placement. -/
def PlacementSection.toTree (p : PlacementSection Q) : Tree Q :=
  .table
    [("strategy", treeOfOption .text p.strategy), ("timeout", treeOfOption .text p.timeout),
      ("bundles", .list (p.bundles.map treeOfQuantities))]

/-- How a document writes a class. -/
def ClassSection.toTree (c : ClassSection Q) : Tree Q :=
  .table
    [("num_cpus", treeOfOption .real c.numCpus), ("num_gpus", treeOfOption .real c.numGpus),
      ("max_concurrency", treeOfOption (fun n : UInt32 => .whole n.toNat) c.maxConcurrency),
      ("name", treeOfOption .text c.name), ("namespace", treeOfOption .text c.nameSpace),
      ("lifetime", treeOfOption .text c.lifetime),
      ("resources", treeOfOption treeOfQuantities c.resources),
      ("placement", treeOfOption PlacementSection.toTree c.placement)]

/-- How a document writes a configuration. -/
def Config.toTree (c : Config Q) : Tree Q :=
  .table
    [("cluster", c.cluster.toTree), ("classes", .table (c.classes.map ClassSection.toTree).entries)]

end Write

end ActorPlacement
