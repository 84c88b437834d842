import ActorPlacement.Cluster.Basic
import ActorPlacement.Proofs.Bundle.Amounts
import Mathlib.Data.List.Perm.Subperm

/-!
# Bundles on nodes

Parts are bundles with the places of the nodes that they lie on. `bundlesOn` lists what lies on one
node, and `getElem?_takeAll` says that taking parts from some nodes takes from each node just that.
`Permitted` and `HasRoom` say when some places for the bundles of a reservation are ones that it may
have and ones that can hold it.
-/

namespace ActorPlacement

/-- The bundles that lie on the node in some place. -/
def bundlesOn {Q : Type} (parts : List (Bundle Q × Nat)) (place : Nat) : List (Bundle Q) :=
  (parts.filter fun p => p.2 = place).map Prod.fst

/-- Whether bundles in these places lie as the strategy demands. -/
def Strategy.Allows (strategy : Strategy) (places : List Nat) : Prop :=
  match strategy with
  | .strictPack => ∀ p ∈ places, ∀ q ∈ places, p = q
  | .strictSpread => places.Nodup
  | .pack | .spread => True

/-- A reservation may have these places: there is one for every bundle, they are those of nodes in use,
and they lie as the strategy demands. -/
structure Permitted {Q : Type} (nodes : List (Node Q)) (bundles : List (Bundle Q))
    (strategy : Strategy) (places : List Nat) : Prop where
  length : places.length = bundles.length
  inUse : ∀ place ∈ places, ∃ n, nodes[place]? = some n ∧ n.draining = false
  allowed : strategy.Allows places

/-- Bundles that lie on a node each are no more than there are nodes. -/
theorem Permitted.length_le {Q : Type} {nodes : List (Node Q)} {bundles : List (Bundle Q)}
    {places : List Nat} (h : Permitted nodes bundles .strictSpread places) :
    bundles.length ≤ nodes.length := by
  have hnodup : places.Nodup := h.allowed
  have hrange : places ⊆ List.range nodes.length := by
    intro place hplace
    obtain ⟨n, hn, -⟩ := h.inUse place hplace
    exact List.mem_range.2 (List.getElem?_eq_some_iff.1 hn).1
  have hle := (hnodup.subperm hrange).length_le
  rwa [h.length, List.length_range] at hle

/-- On every node the parts together do not exceed what is free. -/
def HasRoom (nodes : List (Node Rat)) (parts : List (Bundle Rat × Nat)) : Prop :=
  ∀ place n, nodes[place]? = some n →
    ∀ name, ((bundlesOn parts place).map (Bundle.amount · name)).sum ≤ Bundle.amount n.free name

section Parts

variable {Q : Type}

@[simp] theorem bundlesOn_nil (place : Nat) : bundlesOn ([] : List (Bundle Q × Nat)) place = [] := rfl

theorem bundlesOn_cons (b : Bundle Q) (p : Nat) (parts : List (Bundle Q × Nat)) (place : Nat) :
    bundlesOn ((b, p) :: parts) place
      = if p = place then b :: bundlesOn parts place else bundlesOn parts place := by
  by_cases h : p = place <;> simp [bundlesOn, h]

theorem mem_bundlesOn {parts : List (Bundle Q × Nat)} {place : Nat} {b : Bundle Q} :
    b ∈ bundlesOn parts place ↔ (b, place) ∈ parts := by
  simp [bundlesOn]

theorem mem_of_mem_bundlesOn {bundles : List (Bundle Q)} {places : List Nat} {place : Nat}
    {b : Bundle Q} (h : b ∈ bundlesOn (bundles.zip places) place) : b ∈ bundles :=
  (List.of_mem_zip (mem_bundlesOn.1 h)).1

/-- With a place for every bundle, every bundle lies somewhere. -/
theorem exists_mem_bundlesOn {bundles : List (Bundle Q)} {places : List Nat}
    (hlength : places.length = bundles.length) {b : Bundle Q} (hb : b ∈ bundles) :
    ∃ place ∈ places, b ∈ bundlesOn (bundles.zip places) place := by
  rw [← List.map_fst_zip hlength.ge] at hb
  obtain ⟨⟨b, place⟩, hpart, rfl⟩ := List.mem_map.1 hb
  exact ⟨place, (List.of_mem_zip hpart).2, mem_bundlesOn.2 hpart⟩

/-- Where all bundles lie together, the other nodes hold nothing. -/
theorem bundlesOn_replicate (bundles : List (Bundle Q)) (p place : Nat) :
    bundlesOn (bundles.zip (List.replicate bundles.length p)) place
      = if p = place then bundles else [] := by
  induction bundles with
  | nil => simp
  | cons b rest ih =>
    rw [List.length_cons, List.replicate_succ, List.zip_cons_cons, bundlesOn_cons, ih]
    by_cases h : p = place <;> simp [h]

theorem getElem?_changeFree (nodes : List (Node Q)) (p place : Nat) (f : Bundle Q → Bundle Q) :
    (Cluster.changeFree nodes p f)[place]?
      = if p = place then nodes[place]?.map fun n => { n with free := f n.free } else nodes[place]? := by
  rw [Cluster.changeFree, List.getElem?_modify]
  by_cases h : p = place <;> cases nodes[place]? <;> simp [h]

/-- Changing what is free part by part changes each node by the bundles that lie on it. -/
theorem getElem?_foldl_changeFree (change : Bundle Q → Bundle Q → Bundle Q)
    (parts : List (Bundle Q × Nat)) (nodes : List (Node Q)) (place : Nat) :
    (parts.foldl (fun nodes p => Cluster.changeFree nodes p.2 (change · p.1)) nodes)[place]?
      = nodes[place]?.map fun n => { n with free := (bundlesOn parts place).foldl change n.free } := by
  induction parts generalizing nodes with
  | nil => simp
  | cons part rest ih =>
    obtain ⟨b, p⟩ := part
    rw [List.foldl_cons, ih, getElem?_changeFree, bundlesOn_cons]
    by_cases h : p = place
    · simp [h, Function.comp_def]
    · simp [h]

/-- Parts change nothing of a node but what is free. -/
theorem map_foldl_changeFree {α : Type} (field : Node Q → α)
    (hfield : ∀ n free, field { n with free } = field n) (change : Bundle Q → Bundle Q → Bundle Q)
    (parts : List (Bundle Q × Nat)) (nodes : List (Node Q)) :
    (parts.foldl (fun nodes p => Cluster.changeFree nodes p.2 (change · p.1)) nodes).map field
      = nodes.map field := by
  refine List.ext_getElem? fun place => ?_
  rw [List.getElem?_map, List.getElem?_map, getElem?_foldl_changeFree, Option.map_map]
  cases nodes[place]? <;> simp [hfield]

variable [Quantity Q]

theorem getElem?_takeAll (nodes : List (Node Q)) (parts : List (Bundle Q × Nat)) (place : Nat) :
    (Cluster.takeAll nodes parts)[place]? = nodes[place]?.map fun n =>
      { n with free := (bundlesOn parts place).foldl Bundle.subtract n.free } :=
  getElem?_foldl_changeFree Bundle.subtract parts nodes place

theorem getElem?_giveAll (nodes : List (Node Q)) (parts : List (Bundle Q × Nat)) (place : Nat) :
    (Cluster.giveAll nodes parts)[place]? = nodes[place]?.map fun n =>
      { n with free := (bundlesOn parts place).foldl Bundle.add n.free } :=
  getElem?_foldl_changeFree Bundle.add parts nodes place

end Parts

end ActorPlacement
