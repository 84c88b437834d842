import ActorPlacement.Scoring

/-!
# Planning where bundles go

`plan` chooses a node for every bundle of a reservation. The packing strategies first try the whole
reservation on one node. Bundle by bundle, `pack` goes on with nodes that it uses already, the
spreading strategies with nodes that they do not use yet; `spread` reuses a node only when no other
can take the bundle. A choice is never revised.
-/

namespace ActorPlacement

/-- A member of a cluster. -/
structure Node (Q : Type) where
  id : String
  /-- All that the node has. -/
  capacity : Bundle Q
  /-- What no reservation holds. -/
  free : Bundle Q
  /-- A draining node keeps its reservations and gets no new ones. -/
  draining : Bool

/-- A node without reservations. -/
def Node.idle {Q : Type} (id : String) (resources : Bundle Q) (draining : Bool) : Node Q :=
  { id, capacity := resources, free := resources, draining }

namespace Plan

variable {Q : Type} [Quantity Q]

/-- Nodes as the planner sees them: what each has, what is free while the plan is made, which may
take bundles, and which the plan uses already. -/
structure Board (Q : Type) where
  capacities : List (Bundle Q)
  free : List (Bundle Q)
  schedulable : List Bool
  used : List Bool

/-- The nodes before anything is planned. -/
def Board.ofNodes (nodes : List (Node Q)) : Board Q where
  capacities := nodes.map Node.capacity
  free := nodes.map Node.free
  schedulable := nodes.map fun n => !n.draining
  used := nodes.map fun _ => false

/-- The nodes that may take `demand`, best first. -/
def Board.ranked (b : Board Q) (demand : Bundle Q) (weights : Weights Q) : List (Scored Q) :=
  rank b.capacities b.free b.schedulable demand weights

/-- The nodes that may take `demand` and are not used yet, best first. -/
def Board.rankedUnused (b : Board Q) (demand : Bundle Q) (weights : Weights Q) : List (Scored Q) :=
  rank b.capacities b.free (b.schedulable.zipWith (fun ok taken => ok && !taken) b.used) demand weights

/-- The node for the next bundle, if one can take it. -/
def Board.choose? (b : Board Q) (strategy : Strategy) (demand : Bundle Q) : Option Nat :=
  let weights := Weights.ofStrategy strategy
  match strategy with
  | .pack | .strictPack =>
    let ranked := b.ranked demand weights
    ((ranked.find? fun s => (b.used[s.index]?).getD false) <|> ranked.head?).map Scored.index
  | .spread =>
    ((b.rankedUnused demand weights).head? <|> (b.ranked demand weights).head?).map Scored.index
  | .strictSpread => (b.rankedUnused demand weights).head?.map Scored.index

/-- Put a bundle on a node. -/
def Board.take (b : Board Q) (index : Nat) (bundle : Bundle Q) : Board Q :=
  { b with
    free := b.free.modify index (Bundle.subtract · bundle)
    used := b.used.set index true }

/-- Choose a node for each bundle in turn. -/
def each? (strategy : Strategy) : Board Q → List (Bundle Q) → Option (List Nat)
  | _, [] => some []
  | board, bundle :: rest =>
    (board.choose? strategy bundle).bind fun index =>
      (each? strategy (board.take index bundle) rest).map (index :: ·)

/-- Choose one node for all bundles. -/
def together? (strategy : Strategy) (board : Board Q) (bundles : List (Bundle Q)) :
    Option (List Nat) :=
  (board.ranked (Bundle.total bundles) (Weights.ofStrategy strategy)).head?.map fun best =>
    List.replicate bundles.length best.index

end Plan

/-- The place of a node for every bundle, if the nodes can hold the bundles now. -/
def plan? {Q : Type} [Quantity Q] (nodes : List (Node Q)) (bundles : List (Bundle Q))
    (strategy : Strategy) : Option (List Nat) :=
  let board := Plan.Board.ofNodes nodes
  match strategy with
  | .strictPack => Plan.together? strategy board bundles
  | .pack => Plan.together? strategy board bundles <|> Plan.each? strategy board bundles
  | .spread | .strictSpread => Plan.each? strategy board bundles

end ActorPlacement
