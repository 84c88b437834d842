import ActorPlacement.Config.Document
import ActorPlacement.Proofs.Overrides.RoundTrip
import ActorPlacement.Proofs.Tree.Written
import ActorPlacement.Proofs.Toml.Tables

/-!
# Configurations read back from their documents

Every section of a configuration is read back from the tree that is written of it (`Config.readsBack`): a field that
is unset is left out, and one that has a value of its own when it is missing is written whatever its value. So a
configuration comes back from its TOML document if TOML reads back the tables that it wrote.
-/

namespace ActorPlacement

section Sections

variable {Q : Type} [Quantity Q] (spare : SpareItems)

theorem readsBack_quantities : ReadsBack (Tree.map? Tree.quantity?) (treeOfQuantities (Q := Q)) :=
  readsBack_real.map?

theorem NodeSection.readsBack : ReadsBack (Q := Q) (ofTree? spare) toTree := by
  intro n
  refine (Record.bind_ofTree?_table rfl (by simp) spare _).trans ?_
  rw [Record.required?_ofFields readsBack_text rfl, Record.defaulted?_ofFields readsBack_flag false rfl,
    Record.required?_ofFields readsBack_quantities rfl]
  rfl

theorem ClusterSection.readsBack : ReadsBack (Q := Q) (ofTree? spare) toTree := by
  intro c
  refine (Record.bind_ofTree?_table rfl (by simp) spare _).trans ?_
  rw [Record.optional?_ofFields readsBack_text rfl,
    Record.defaulted?_ofFields (NodeSection.readsBack spare).list? [] rfl]
  rfl

theorem PlacementSection.readsBack : ReadsBack (Q := Q) (ofTree? spare) toTree := by
  intro p
  refine (Record.bind_ofTree?_table rfl (by simp) spare _).trans ?_
  rw [Record.optional?_ofFields readsBack_text rfl, Record.optional?_ofFields readsBack_text rfl,
    Record.required?_ofFields readsBack_quantities.list? rfl]
  rfl

theorem ClassSection.readsBack : ReadsBack (Q := Q) (ofTree? spare) toTree := by
  intro c
  refine (Record.bind_ofTree?_table rfl (by simp) spare _).trans ?_
  rw [Record.optional?_ofFields readsBack_real rfl, Record.optional?_ofFields readsBack_real rfl,
    Record.optional?_ofFields readsBack_word32 rfl, Record.optional?_ofFields readsBack_text rfl,
    Record.optional?_ofFields readsBack_text rfl, Record.optional?_ofFields readsBack_text rfl,
    Record.optional?_ofFields readsBack_quantities rfl,
    Record.optional?_ofFields (PlacementSection.readsBack spare) rfl]
  rfl

theorem Config.readsBack : ReadsBack (Q := Q) (ofTree? spare) toTree := by
  intro c
  refine (Record.bind_ofTree?_table rfl (by simp) spare _).trans ?_
  rw [Record.defaulted?_ofFields (ClusterSection.readsBack spare) _ rfl,
    Record.defaulted?_ofFields (ClassSection.readsBack spare).map? _ rfl]
  rfl

end Sections

/-! ## Documents -/

/-- The quantities of a node. -/
def NodeSection.quantities {Q : Type} (n : NodeSection Q) : List Q := n.resources.values

/-- The quantities of a cluster. -/
def ClusterSection.quantities {Q : Type} (c : ClusterSection Q) : List Q := c.nodes.flatMap NodeSection.quantities

/-- The quantities of a placement. -/
def PlacementSection.quantities {Q : Type} (p : PlacementSection Q) : List Q := p.bundles.flatMap NameMap.values

/-- The quantities of a class. -/
def ClassSection.quantities {Q : Type} (c : ClassSection Q) : List Q :=
  c.numCpus.toList ++ c.numGpus.toList ++ c.resources.toList.flatMap NameMap.values
    ++ c.placement.toList.flatMap PlacementSection.quantities

/-- All quantities of a configuration. -/
def Config.quantities {Q : Type} (c : Config Q) : List Q :=
  c.cluster.quantities ++ c.classes.values.flatMap ClassSection.quantities

section Documents

open Toml (ReadsFloat ReadsLeaf Writable)

theorem writable_quantities {m : NameMap Float} (h : ∀ x ∈ m.values, ReadsFloat x) (n : Nat) :
    Writable n (treeOfQuantities m) := by
  refine .of_leaves (m.map Tree.real).nodup_names fun e he => .inr ?_
  obtain ⟨entry, hentry, rfl⟩ := List.mem_map.1 he
  exact Toml.readsLeaf_real (h _ (List.mem_map_of_mem hentry))

theorem NodeSection.writable {node : NodeSection Float} (h : ∀ x ∈ node.quantities, ReadsFloat x) (n : Nat) :
    Writable (n + 1) node.toTree := by
  refine .intro [_, _] (by simp) ?_ ?_
  · simp [Toml.readsLeaf_text, Toml.readsLeaf_flag]
  · simpa using .table (writable_quantities h n)

theorem ClusterSection.writable {cluster : ClusterSection Float} (h : ∀ x ∈ cluster.quantities, ReadsFloat x)
    (n : Nat) : Writable (n + 2) cluster.toTree := by
  refine .with_tables [_] (by simp) ?_ ?_
  · simpa using Toml.leaf_treeOfOption cluster.defaultTimeout fun s _ => Toml.readsLeaf_text s
  · refine List.forall_mem_map.2 fun node hnode => NodeSection.writable (fun x hx => h x ?_) n
    exact List.mem_flatMap.2 ⟨node, hnode, hx⟩

theorem PlacementSection.writable {placement : PlacementSection Float} (h : ∀ x ∈ placement.quantities, ReadsFloat x)
    (n : Nat) : Writable (n + 1) placement.toTree := by
  have htext (content : Option String) := Toml.leaf_treeOfOption content fun s _ => Toml.readsLeaf_text s
  refine .with_tables [_, _] (by simp) ?_ ?_
  · simp [htext]
  · refine List.forall_mem_map.2 fun bundle hbundle => writable_quantities (fun x hx => h x ?_) n
    exact List.mem_flatMap.2 ⟨bundle, hbundle, hx⟩

theorem ClassSection.writable {c : ClassSection Float} (h : ∀ x ∈ c.quantities, ReadsFloat x) (n : Nat) :
    Writable (n + 2) c.toTree := by
  simp only [ClassSection.quantities, List.mem_append, List.mem_flatMap, Option.mem_toList, or_imp, forall_and] at h
  obtain ⟨⟨⟨hcpus, hgpus⟩, hresources⟩, hplacement⟩ := h
  have htext (content : Option String) := Toml.leaf_treeOfOption content fun s _ => Toml.readsLeaf_text s
  have hword := Toml.leaf_treeOfOption c.maxConcurrency
    fun n _ => Toml.readsLeaf_whole (OptionValue.fitsWord_toNat n)
  have hreal {content : Option Float} (hcontent : ∀ x ∈ content, ReadsFloat x) :=
    Toml.leaf_treeOfOption content fun x hx => Toml.readsLeaf_real (hcontent x hx)
  refine .intro [_, _, _, _, _, _] (by simp) ?_ ?_
  · simp [htext, hword, hreal hcpus, hreal hgpus]
  · have hquantities := Toml.section_treeOfOption c.resources
      fun m hm => writable_quantities (fun x hx => hresources x ⟨m, hm, hx⟩) (n + 1)
    have hrequired := Toml.section_treeOfOption c.placement
      fun p hp => PlacementSection.writable (fun x hx => hplacement x ⟨p, hp, hx⟩) n
    simp [hquantities, hrequired]

theorem Config.writable {config : Config Float} (h : ∀ x ∈ config.quantities, ReadsFloat x) :
    Writable 4 config.toTree := by
  simp only [Config.quantities, List.mem_append, or_imp, forall_and] at h
  obtain ⟨hcluster, hclasses⟩ := h
  have hclass : Writable 3 (.table (config.classes.map ClassSection.toTree).entries) := by
    refine .of_sections (config.classes.map ClassSection.toTree).nodup_names fun e he => ?_
    obtain ⟨entry, hentry, rfl⟩ := List.mem_map.1 he
    refine .table (ClassSection.writable (fun x hx => hclasses x ?_) 0)
    exact List.mem_flatMap.2 ⟨entry.2, List.mem_map_of_mem hentry, hx⟩
  refine .of_sections (by simp) ?_
  simpa using ⟨.table (ClusterSection.writable hcluster 1), .table hclass⟩

namespace Config

/-- **Configurations survive being written.** If TOML reads back the floats that it wrote of a configuration, then the
document of the configuration is read as that configuration again: the same nodes in the same order and the same
classes, with the same fields set and unset, whatever their names and texts. So writing it again gives the same
document. -/
theorem ofToml?_toToml (config : Config Float) (hfloats : ∀ x ∈ config.quantities, ReadsFloat x) :
    ofToml? config.toToml = some config
      ∧ ∀ again, ofToml? config.toToml = some again → again.toToml = config.toToml := by
  have hread : Toml.readTree? (Toml.write config.toTree) = config.toTree.present? :=
    Toml.readTree?_write (Config.writable hfloats) (by decide)
  have hback : ofToml? config.toToml = some config := by
    rw [ofToml?, toToml, hread]
    exact Config.readsBack .passedOver config
  refine ⟨hback, fun again hagain => ?_⟩
  rw [hback] at hagain
  rw [Option.some.inj hagain]

/-- A node that drains, and a class of which only a share of a processor and a placement without bundles is said, come
back. -/
theorem ofToml?_toToml_draining :
    let config : Config Float :=
      { cluster := { defaultTimeout := none, nodes := [⟨"n", true, NameMap.ofList [("CPU", 0.5)]⟩] }
        classes := NameMap.ofList
          [("a b", ⟨some 0.1, none, some 3, none, none, none, none, some ⟨none, none, [NameMap.empty]⟩⟩)] }
    ofToml? config.toToml = some config := by
  intro config
  have hhalf : FloatStyle.toml.write 0.5 = "0.5" := rfl
  have htenth : FloatStyle.toml.write 0.1 = "0.1" := rfl
  have hquantities : config.quantities = [0.5, 0.1] := rfl
  have hfloats : ∀ x ∈ config.quantities, ReadsFloat x := by
    rw [hquantities, List.forall_mem_cons, List.forall_mem_singleton, ReadsFloat, ReadsFloat, hhalf, htenth]
    exact ⟨rfl, rfl⟩
  exact (ofToml?_toToml config hfloats).1

end Config

end Documents

end ActorPlacement
