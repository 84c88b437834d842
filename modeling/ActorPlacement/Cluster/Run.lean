import ActorPlacement.Cluster.Basic
import ActorPlacement.Config.Build

/-!
# Runs of a cluster

A run starts from a cluster that was just built and performs operations in any order. `Cluster.granted`
lists the tokens that the accepted submissions of a run are answered with, and `Cluster.joined` the nodes
that it adds.
-/

namespace ActorPlacement

/-- What changes a cluster. A node that joins holds nothing yet. -/
inductive Operation (Q : Type) where
  | addNode (id : String) (resources : Bundle Q) (draining : Bool)
  | setDraining (id : String) (draining : Bool)
  | submit (bundles : List (Bundle Q)) (strategy : Strategy)
  | release (token : Token)

/-- Whether an operation is a submission. -/
def Operation.isSubmit {Q : Type} : Operation Q → Bool
  | submit _ _ => true
  | _ => false

namespace Cluster

variable {Q : Type} [Quantity Q]

/-- The cluster after an operation. -/
def apply (c : Cluster Q) : Operation Q → Cluster Q
  | .addNode id resources draining => (c.addNode (Node.idle id resources draining)).1
  | .setDraining id draining => (c.setDraining id draining).1
  | .submit bundles strategy => (c.submit bundles strategy).1
  | .release token => c.release token

/-- The cluster after some operations. -/
def run (c : Cluster Q) (ops : List (Operation Q)) : Cluster Q := ops.foldl apply c

/-- The token that an operation is answered with, if it is an accepted submission. -/
def grant? (c : Cluster Q) : Operation Q → Option Token
  | .submit bundles strategy => (c.submit bundles strategy).2.toOption
  | _ => none

/-- The tokens granted in a run, in their order. -/
def granted : Cluster Q → List (Operation Q) → List Token
  | _, [] => []
  | c, op :: rest => (c.grant? op).toList ++ (c.apply op).granted rest

/-- The node that an operation adds, if it is an addition of a new one. -/
def joins? (c : Cluster Q) : Operation Q → Option (Node Q)
  | .addNode id resources draining =>
    let node := Node.idle id resources draining
    if (c.addNode node).2 then some node else none
  | _ => none

/-- The nodes added in a run, in their order. -/
def joined : Cluster Q → List (Operation Q) → List (Node Q)
  | _, [] => []
  | c, op :: rest => (c.joins? op).toList ++ (c.apply op).joined rest

/-- A cluster before any operation: without nodes, of idle nodes, or as a configuration declares it. -/
inductive Built : Cluster Q → Prop where
  | empty : Built empty
  | ofNodes (nodes : List (Node Q)) (idle : ∀ n ∈ nodes, n.free = n.capacity) : Built (ofNodes nodes)
  | ofSection {section_ : ClusterSection Q} {c : Cluster Q} (declared : ofSection section_ = .ok c) :
    Built c

end Cluster

end ActorPlacement
