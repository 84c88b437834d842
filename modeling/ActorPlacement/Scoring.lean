import ActorPlacement.Bundle
import ActorPlacement.Strategy

/-!
# Scoring nodes

How well a node suits a bundle: a weighted sum of how full the node will be of what the bundle asks
for, of how much room is left, and of how near the node is to the cluster's average utilization.
`rank` lists the nodes that can take a bundle, best first; nodes of equal score stay in order.
-/

namespace ActorPlacement

/-- How much each component counts. -/
structure Weights (Q : Type) where
  packing : Q
  headroom : Q
  balance : Q

namespace Weights

variable {Q : Type} [Quantity Q]

/-- Weights that prefer the fullest node. -/
def forPacking : Weights Q := ⟨0.8, 0.0, 0.2⟩

/-- Weights that prefer the emptiest node. -/
def forSpreading : Weights Q := ⟨0.0, 0.8, 0.2⟩

/-- The weights when nothing is said. -/
def standard : Weights Q := forPacking

/-- The weights of a strategy. -/
def ofStrategy : Strategy → Weights Q
  | .pack => forPacking
  | .strictPack => forPacking
  | .spread => forSpreading
  | .strictSpread => forSpreading

end Weights

/-- A sum and the number of its terms. -/
structure Tally (Q : Type) where
  total : Q
  count : Nat

namespace Tally

variable {Q : Type} [Quantity Q]

/-- Nothing summed. -/
def none : Tally Q := ⟨Quantity.zero, 0⟩

/-- One term more. -/
def add (t : Tally Q) (x : Q) : Tally Q := ⟨t.total + x, t.count + 1⟩

/-- The mean of the terms, one half if there are none. -/
def mean (t : Tally Q) : Q := if t.count = 0 then 0.5 else t.total / Quantity.ofInt t.count

end Tally

variable {Q : Type} [Quantity Q]

/-- The part of a capacity in use when `free` of it remains. -/
def usedShare (capacity free : Q) : Q := Quantity.clampToUnit ((capacity - free) / capacity)

/-- The mean share in use of the resources that the node has. -/
def utilization (capacity free : Bundle Q) : Q :=
  (capacity.entries.foldl (fun t e =>
    if Quantity.exceeds e.2 Quantity.zero then t.add (usedShare e.2 (Bundle.amount free e.1)) else t)
    Tally.none).mean

/-- The part of a capacity in use once `quantity` more of it is taken. -/
def projectedShare (capacity free quantity : Q) : Q :=
  Quantity.capAtOne ((capacity - free + quantity) / capacity)

/-- The mean share in use after placing `demand`, of the resources it asks for and the node has. -/
def projected (capacity free demand : Bundle Q) : Q :=
  (demand.entries.foldl (fun t e =>
    let cap := Bundle.amount capacity e.1
    if Quantity.exceeds cap Quantity.zero then
      t.add (projectedShare cap (Bundle.amount free e.1) e.2)
    else t) Tally.none).mean

/-- How near a node's utilization is to the average, in percent. -/
def balanceScore (nodeUtilization average : Q) : Q :=
  Quantity.floorAtZero (Quantity.one - Quantity.magnitude (nodeUtilization - average)) * 100.0

/-- The weighted sum of the components, for a bundle that fits. -/
def weightedScore (capacity free demand : Bundle Q) (weights : Weights Q) (average : Q) : Q :=
  let share := projected capacity free demand
  weights.packing * (share * 100.0) + weights.headroom * ((Quantity.one - share) * 100.0)
    + weights.balance * balanceScore (utilization capacity free) average

/-- The score of a node for `demand`, if the bundle fits. -/
def score? (capacity free demand : Bundle Q) (weights : Weights Q) (average : Q) : Option Q :=
  if Bundle.covers free demand then some (weightedScore capacity free demand weights average)
  else none

/-- The mean utilization of some nodes, one half if there are none. A node without an entry in `free`
adds nothing to the sum. -/
def averageUtilization (capacities free : List (Bundle Q)) : Q :=
  if capacities.isEmpty then 0.5
  else
    (capacities.zip free).foldl (fun sum n => sum + utilization n.1 n.2) Quantity.zero
      / Quantity.ofInt capacities.length

/-- A node's place and its score. -/
structure Scored (Q : Type) where
  index : Nat
  score : Q

/-- Insert into a list that is worst first, before the first entry that is not worse. -/
def insertWorstFirst (x : Scored Q) : List (Scored Q) → List (Scored Q)
  | [] => [x]
  | y :: rest =>
    if Quantity.exceeds x.score y.score then y :: insertWorstFirst x rest else x :: y :: rest

/-- Sort by descending score; equal scores keep their order. -/
def bestFirst (scores : List (Scored Q)) : List (Scored Q) :=
  (scores.foldl (fun sorted x => insertWorstFirst x sorted) []).reverse

/-- The scores of the eligible nodes that `demand` fits, best first. Node `i` has the capacity and the
free bundle in place `i`; it is not eligible when `eligible` is too short to tell. -/
def rank (capacities free : List (Bundle Q)) (eligible : List Bool) (demand : Bundle Q)
    (weights : Weights Q) : List (Scored Q) :=
  let average := averageUtilization capacities free
  bestFirst ((capacities.zip free).zipIdx.filterMap fun (node, index) =>
    if (eligible[index]?).getD false then
      (score? node.1 node.2 demand weights average).map fun score => ⟨index, score⟩
    else none)

end ActorPlacement
