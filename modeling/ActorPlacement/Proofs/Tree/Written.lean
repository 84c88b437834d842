import ActorPlacement.Config.Basic
import ActorPlacement.NameMap.Lemmas
import Mathlib.Data.List.Nodup

/-!
# Values read back from the trees that write them

A document keeps of a tree what is there: an entry without a value is left out (`Tree.present?`). A writer and a
reader fit if of every value enough is kept to read the value again (`ReadsBack`). They fit for lists and maps if
they do for the items, and for records if they do for every field: a field that may be unset is left out when it is
unset, which the reader takes for unset again.
-/

namespace ActorPlacement

variable {Q α β : Type}

/-- What succeeds for all that is made of the items of a list succeeds for the list. -/
theorem mapM_map_eq_some {γ : Type} {make : α → β} {f : β → Option γ} {g : α → γ} {items : List α}
    (h : ∀ a ∈ items, f (make a) = some (g a)) : (items.map make).mapM f = some (items.map g) := by
  induction items with
  | nil => rfl
  | cons a rest ih =>
    obtain ⟨hfirst, hrest⟩ := List.forall_mem_cons.1 h
    simp [hfirst, ih hrest]

namespace Tree

/-! ## What is kept -/

mutual

/-- What a document keeps of a tree, if it is not absent. -/
def present? : Tree Q → Option (Tree Q)
  | absent => none
  | list items => some (list (presentItems items))
  | table entries => some (table (presentEntries entries))
  | flag value => some (flag value)
  | whole value => some (whole value)
  | real value => some (real value)
  | text value => some (text value)
  | stamp => some stamp
  | unread => some unread

/-- The items that are kept. -/
def presentItems : List (Tree Q) → List (Tree Q)
  | [] => []
  | item :: rest => (present? item).toList ++ presentItems rest

/-- The entries that are kept. -/
def presentEntries : List (String × Tree Q) → List (String × Tree Q)
  | [] => []
  | (name, value) :: rest => ((present? value).map fun kept => (name, kept)).toList ++ presentEntries rest

end

theorem presentItems_eq (items : List (Tree Q)) : presentItems items = items.filterMap present? := by
  induction items with
  | nil => rfl
  | cons item rest ih =>
    rw [presentItems, ih, List.filterMap_cons]
    cases present? item <;> rfl

theorem presentEntries_eq (entries : List (String × Tree Q)) :
    presentEntries entries = entries.filterMap fun e => (present? e.2).map fun kept => (e.1, kept) := by
  induction entries with
  | nil => rfl
  | cons e rest ih =>
    rw [presentEntries, ih, List.filterMap_cons]
    cases present? e.2 <;> rfl

theorem presentEntries_append (front back : List (String × Tree Q)) :
    presentEntries (front ++ back) = presentEntries front ++ presentEntries back := by
  simp only [presentEntries_eq, List.filterMap_append]

theorem present?_ne_some_absent (tree : Tree Q) : tree.present? ≠ some absent := by
  cases tree <;> simp [present?]

end Tree

open ActorPlacement.Tree (present?)

/-- Of every value that is written enough is kept to read it again. -/
def ReadsBack (read : Tree Q → Option α) (write : α → Tree Q) : Prop :=
  ∀ a, (write a).present?.bind read = some a

section Values

theorem readsBack_text : ReadsBack (Q := Q) Tree.text? .text := fun _ => rfl

theorem readsBack_flag : ReadsBack (Q := Q) Tree.flag? .flag := fun _ => rfl

theorem readsBack_real [Quantity Q] : ReadsBack (Q := Q) Tree.quantity? .real := fun _ => rfl

theorem readsBack_word32 : ReadsBack (Q := Q) Tree.word32? fun n => .whole n.toNat := by
  intro n
  have hlt : n.toNat < UInt32.size := n.toNat_lt_size
  have hcond : 0 ≤ (n.toNat : Int) ∧ (n.toNat : Int) < UInt32.size := by omega
  rw [present?, Option.bind_some, Tree.word32?, if_pos hcond, Int.toNat_natCast, UInt32.ofNat_toNat]

variable {read : Tree Q → Option α} {write : α → Tree Q}

/-- What can be read back is kept. -/
theorem ReadsBack.exists_present (h : ReadsBack read write) (a : α) :
    ∃ kept, (write a).present? = some kept ∧ read kept = some a :=
  Option.bind_eq_some_iff.1 (h a)

/-- What is written of a value, as it is kept. -/
theorem ReadsBack.exists_kept (h : ReadsBack read write) :
    ∃ kept : α → Tree Q, ∀ a, (write a).present? = some (kept a) ∧ read (kept a) = some a :=
  Classical.skolem.1 h.exists_present

theorem ReadsBack.list? (h : ReadsBack read write) :
    ReadsBack (Tree.list? read) fun items : List α => .list (items.map write) := by
  intro items
  obtain ⟨kept, hkept⟩ := h.exists_kept
  have hitems : Tree.presentItems (items.map write) = items.map kept := by
    rw [Tree.presentItems_eq, List.filterMap_map]
    exact List.filterMap_eq_map_iff_forall_eq_some.2 fun a _ => (hkept a).1
  show (Tree.presentItems (items.map write)).mapM read = some items
  rw [hitems, mapM_map_eq_some (g := id) fun a _ => (hkept a).2, List.map_id]

theorem ReadsBack.map? (h : ReadsBack read write) :
    ReadsBack (Tree.map? read) fun m : NameMap α => .table (m.map write).entries := by
  intro m
  obtain ⟨kept, hkept⟩ := h.exists_kept
  have hentries : Tree.presentEntries (m.map write).entries = m.entries.map fun e => (e.1, kept e.2) := by
    rw [Tree.presentEntries_eq, NameMap.map, List.filterMap_map]
    exact List.filterMap_eq_map_iff_forall_eq_some.2 fun e _ => by simp [(hkept e.2).1]
  have hread : ∀ e ∈ m.entries, (read (kept e.2)).map (fun value => (e.1, value)) = some e := fun e _ => by
    simp [(hkept e.2).2]
  rw [present?, Option.bind_some, Tree.map?, hentries, mapM_map_eq_some (g := id) hread, List.map_id,
    Option.map_some, m.ofList_entries]

end Values

/-! ## Records -/

namespace Record

variable {fields : List (String × Tree Q)} {place : Nat} {name : String}

/-- The record that is kept of some fields. -/
def ofFields (fields : List (String × Tree Q)) : Record Q where
  slots := fields.map fun f => f.2.present?
  inOrder := false

/-- A field is found under its name, unless it is left out. -/
theorem slot?_presentEntries (hnames : (fields.map Prod.fst).Nodup) {tree : Tree Q} (h : (name, tree) ∈ fields) :
    slot? (Tree.presentEntries fields) name = some tree.present? := by
  have hkept : (Tree.presentEntries fields).filter (fun e => e.1 == name)
      = (tree.present?.map fun kept => (name, kept)).toList := by
    induction fields with
    | nil => cases h
    | cons first rest ih =>
      obtain ⟨head, headTree⟩ := first
      obtain ⟨hhead, hrest⟩ := List.nodup_cons.1 hnames
      rw [Tree.presentEntries, List.filter_append]
      rcases List.mem_cons.1 h with heq | hmem
      · cases heq
        have hothers : (Tree.presentEntries rest).filter (fun e => e.1 == name) = [] := by
          refine List.filter_eq_nil_iff.2 fun e he heq => hhead ?_
          rw [Tree.presentEntries_eq] at he
          obtain ⟨f, hf, hkept⟩ := List.mem_filterMap.1 he
          obtain ⟨kept, -, rfl⟩ := Option.map_eq_some_iff.1 hkept
          exact List.mem_map.2 ⟨f, hf, by simpa using heq⟩
        rw [hothers, List.append_nil]
        cases tree.present? <;> simp
      · have hne : head ≠ name := by
          rintro rfl
          exact hhead (List.mem_map.2 ⟨_, hmem, rfl⟩)
        rw [ih hrest hmem]
        cases headTree.present? <;> simp [hne]
  rw [slot?, hkept]
  cases tree.present? <;> rfl

/-- A record is read from the fields that were written of it. -/
theorem bind_ofTree?_table {names : List String} (hfields : fields.map Prod.fst = names) (hnames : names.Nodup)
    (spare : SpareItems) (read : Record Q → Option α) :
    (Tree.table fields).present?.bind (fun tree => (ofTree? spare names tree).bind read) = read (ofFields fields) := by
  subst hfields
  have hslots : (fields.map Prod.fst).mapM (slot? (Tree.presentEntries fields))
      = some (fields.map fun f => f.2.present?) :=
    mapM_map_eq_some fun f hf => slot?_presentEntries hnames hf
  rw [present?, Option.bind_some, ofTree?, hslots]
  rfl

variable {read : Tree Q → Option α} {write : α → Tree Q} {a : α} {content : Option α}

theorem at?_ofFields {tree : Tree Q} (h : fields[place]? = some (name, tree)) :
    (ofFields fields).at? place = tree.present? := by
  simp [at?, ofFields, h]

theorem required?_ofFields (hread : ReadsBack read write) (h : fields[place]? = some (name, write a)) :
    (ofFields fields).required? place read = some a := by
  rw [required?, at?_ofFields h]
  exact hread a

theorem defaulted?_ofFields (hread : ReadsBack read write) (standard : α)
    (h : fields[place]? = some (name, write a)) : (ofFields fields).defaulted? place standard read = some a := by
  obtain ⟨kept, hkept, ha⟩ := hread.exists_present a
  rw [defaulted?, at?_ofFields h, hkept]
  exact ha

/-- A field that is unset is left out, and one that is left out is unset. -/
theorem optional?_ofFields (hread : ReadsBack read write) (h : fields[place]? = some (name, treeOfOption write content)) :
    (ofFields fields).optional? place read = some content := by
  rw [optional?, at?_ofFields h]
  cases content with
  | none => rfl
  | some a =>
    obtain ⟨kept, hkept, ha⟩ := hread.exists_present a
    have hpresent : kept ≠ .absent := fun heq => Tree.present?_ne_some_absent _ (heq ▸ hkept)
    simp [treeOfOption, hkept, ha]

end Record

end ActorPlacement
