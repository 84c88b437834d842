import ActorPlacement.Cluster.Plan
import ActorPlacement.Failure

/-!
# A cluster that places reservations

A `Cluster` holds nodes and reservations. A reservation that does not fit when it is submitted stays
pending; every change that may free capacity tries the pending ones again in the order of their
submission. Nodes are only ever added, so the place of a node in the list stays its own.
-/

namespace ActorPlacement

/-- A submitted reservation that has not been released. -/
structure Reservation (Q : Type) where
  token : Token
  bundles : List (Bundle Q)
  strategy : Strategy
  /-- The place of a node for every bundle, once the reservation is placed. -/
  assignment : Option (List Nat)
  /-- What those who wait for the reservation observe. -/
  ready : Bool
  deriving DecidableEq

/-- Nodes and the reservations on them. -/
structure Cluster (Q : Type) where
  nodes : List (Node Q)
  /-- Live reservations, oldest first. -/
  reservations : List (Reservation Q)
  /-- Tokens of reservations that wait for capacity, oldest first. -/
  pending : List Token
  /-- How many tokens have been issued. -/
  issued : Nat

/-- The token with a number, of six digits at least. -/
def Token.numbered (n : Nat) : Token :=
  let digits := Decimal.digitsOf n
  ⟨"pg-" ++ String.ofList (List.replicate (6 - digits.length) '0' ++ digits)⟩

namespace Cluster

variable {Q : Type}

/-- A cluster without nodes. -/
def empty : Cluster Q := { nodes := [], reservations := [], pending := [], issued := 0 }

instance : Inhabited (Cluster Q) := ⟨empty⟩

/-- The live reservation of a token. -/
def find? (c : Cluster Q) (token : Token) : Option (Reservation Q) :=
  c.reservations.find? fun r => r.token = token

/-- Whether a node has the id. -/
def hasNode (c : Cluster Q) (id : String) : Bool := c.nodes.any fun n => n.id == id

/-- What is free on a node. -/
def freeOn? (c : Cluster Q) (id : String) : Option (Bundle Q) :=
  (c.nodes.find? fun n => n.id == id).map Node.free

/-- The ids of the nodes that hold the bundles of a placed reservation. -/
def assignment? (c : Cluster Q) (token : Token) : Option (List String) :=
  (c.find? token).bind fun r => r.assignment.bind fun places =>
    places.mapM fun place => (c.nodes[place]?).map Node.id

/-- Add a node at the end, unless its id is taken. -/
def join (c : Cluster Q) (node : Node Q) : Cluster Q × Bool :=
  if c.hasNode node.id then (c, false) else ({ c with nodes := c.nodes ++ [node] }, true)

/-- A cluster of some nodes; of two with one id the first counts. -/
def ofNodes (nodes : List (Node Q)) : Cluster Q := nodes.foldl (fun c node => (c.join node).1) empty

variable [Quantity Q]

/-- Why no node of the cluster could ever satisfy a request, if that is so. -/
def refusal? (c : Cluster Q) (bundles : List (Bundle Q)) (strategy : Strategy) : Option (Refusal Q) :=
  let fitsNowhere (bundle : Bundle Q) : Bool := !c.nodes.any fun n => Bundle.covers n.capacity bundle
  let bundleRefusal? (bundle : Bundle Q) (index : Nat) : Option (Refusal Q) :=
    match Bundle.fault? bundle with
    | some fault => some (.badBundle index fault)
    | none => if fitsNowhere bundle then some (.bundleTooLarge index bundle) else none
  let strategyRefusal? : Option (Refusal Q) :=
    match strategy with
    | .strictPack =>
      let total := Bundle.total bundles
      if fitsNowhere total then some (.totalTooLarge total) else none
    | .strictSpread =>
      if c.nodes.length < bundles.length then some (.tooFewNodes bundles.length c.nodes.length) else none
    | .pack | .spread => none
  if bundles.isEmpty then some .noBundles
  else (bundles.zipIdx.findSome? fun p => bundleRefusal? p.1 p.2) <|> strategyRefusal?

/-- Change what is free on the node in some place. -/
def changeFree (nodes : List (Node Q)) (place : Nat) (f : Bundle Q → Bundle Q) : List (Node Q) :=
  nodes.modify place fun n => { n with free := f n.free }

/-- Take every bundle from the node assigned to it. -/
def takeAll (nodes : List (Node Q)) (parts : List (Bundle Q × Nat)) : List (Node Q) :=
  parts.foldl (fun nodes p => changeFree nodes p.2 (Bundle.subtract · p.1)) nodes

/-- Give every bundle back to the node assigned to it. -/
def giveAll (nodes : List (Node Q)) (parts : List (Bundle Q × Nat)) : List (Node Q) :=
  parts.foldl (fun nodes p => changeFree nodes p.2 (Bundle.add · p.1)) nodes

/-- Record that a reservation is placed. -/
def markPlaced (c : Cluster Q) (token : Token) (places : List Nat) : List (Reservation Q) :=
  c.reservations.map fun r =>
    if r.token = token then { r with assignment := some places, ready := true } else r

/-- Place a reservation if it fits now, and answer whether it is placed. -/
def tryPlace (c : Cluster Q) (token : Token) : Cluster Q × Bool :=
  match c.find? token with
  | none => (c, false)
  | some r =>
    if r.assignment.isSome then (c, true)
    else
      match plan? c.nodes r.bundles r.strategy with
      | none => (c, false)
      | some places =>
        ({ c with
            nodes := takeAll c.nodes (r.bundles.zip places)
            reservations := c.markPlaced token places }, true)

/-- Try one token; if it cannot be placed it goes to the end of the pending ones. -/
def retry (c : Cluster Q) (token : Token) : Cluster Q :=
  let (tried, placed) := c.tryPlace token
  if placed then tried else { tried with pending := tried.pending ++ [token] }

/-- Try all pending reservations in order. -/
def retryPending (c : Cluster Q) : Cluster Q := c.pending.foldl retry { c with pending := [] }

/-- Add a node, which pending reservations may then use. Answers whether its id was new. -/
def addNode (c : Cluster Q) (node : Node Q) : Cluster Q × Bool :=
  let (joined, added) := c.join node
  (if added then joined.retryPending else joined, added)

/-- Let a node drain, or take it back into use, which pending reservations may then do. Answers
whether there is such a node. -/
def setDraining (c : Cluster Q) (id : String) (draining : Bool) : Cluster Q × Bool :=
  match c.nodes.findIdx? fun n => n.id == id with
  | none => (c, false)
  | some place =>
    let changed := { c with nodes := c.nodes.modify place fun n => { n with draining } }
    (if draining then changed else changed.retryPending, true)

/-- Submit a reservation: refuse what can never be satisfied, else issue a token and place the
reservation or leave it pending. -/
def submit (c : Cluster Q) (bundles : List (Bundle Q)) (strategy : Strategy) :
    Cluster Q × Except (Refusal Q) Token :=
  match c.refusal? bundles strategy with
  | some why => (c, .error why)
  | none =>
    let token := Token.numbered (c.issued + 1)
    let reservation : Reservation Q := { token, bundles, strategy, assignment := none, ready := false }
    let kept := c.reservations.filter fun r => r.token ≠ token
    let recorded := { c with issued := c.issued + 1, reservations := kept ++ [reservation] }
    (recorded.retry token, .ok token)

/-- Remove a reservation and give back what it held, which pending reservations may then use. An
unknown token changes nothing. -/
def release (c : Cluster Q) (token : Token) : Cluster Q :=
  match c.find? token with
  | none => c
  | some r =>
    let remaining := c.reservations.filter fun r => r.token ≠ token
    let freed : Cluster Q :=
      match r.assignment with
      | some places => { c with reservations := remaining, nodes := giveAll c.nodes (r.bundles.zip places) }
      | none => { c with reservations := remaining, pending := c.pending.filter fun t => t ≠ token }
    freed.retryPending

/-- The tokens that a change from `before` made ready, in the order in which they were pending. -/
def newlyReady (before after : Cluster Q) : List Token :=
  before.pending.filter fun token => ((after.find? token).map Reservation.ready).getD false

end Cluster

end ActorPlacement
