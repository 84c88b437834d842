import ActorPlacement.Proofs.Toml.Drafts
import ActorPlacement.Proofs.Toml.Lines
import ActorPlacement.Proofs.Tree.Written

/-!
# TOML tables are read back

A table is written as its header, its pairs, and one section after the other for the tables below it. `Holds` says
what the text so far is read as: a page on which the table's path leads to the entries that are done. Every pair and
every section adds its entry (`holds_pairs`, `holds_section`), so whatever is written under a header fills the table
of the header (`readsBody`, by induction on the fuel of the writer). A table without pairs may have no header; then
the first header below it makes it.

So a document is read back as the tree that it was written of, less what is absent there, if every table has its
leaves first and its leaves are read back (`Writable`, `readTree?_write`).
-/

namespace ActorPlacement.Toml

open ActorPlacement.Tree (presentEntries presentItems)
open Draft (Reaches Focus Slot find? entriesToTree itemsToTree)

variable {path : List String} {key : String} {entries : List (String × Tree Float)} {w : Written} {page : Page}
variable {inner : Draft.Entries Float} {plug : Draft.Entries Float → Draft.Entries Float}

/-! ## Tables that TOML holds -/

mutual

/-- A table that TOML holds, with tables at most `n` names below it: its names differ, and its leaves, each of which is
read back, precede what has sections of its own. -/
inductive Writable : Nat → Tree Float → Prop where
  | intro {n : Nat} (leaves : List (String × Tree Float)) {sections : List (String × Tree Float)}
      (names : ((leaves ++ sections).map Prod.fst).Nodup) (leaf : ∀ e ∈ leaves, e.2 = .absent ∨ ReadsLeaf e.2)
      (held : ∀ e ∈ sections, WritableSection n e.2) : Writable n (.table (leaves ++ sections))

/-- What has sections of its own: a table, or several. -/
inductive WritableSection : Nat → Tree Float → Prop where
  | absent {n : Nat} : WritableSection n .absent
  | table {n : Nat} {tree : Tree Float} (held : Writable n tree) : WritableSection (n + 1) tree
  | tables {n : Nat} {items : List (Tree Float)} (ne : items ≠ []) (held : ∀ item ∈ items, Writable n item) :
      WritableSection (n + 1) (.list items)

end

theorem Writable.exists_entries {n : Nat} {tree : Tree Float} (h : Writable n tree) :
    ∃ entries, tree = .table entries := by
  cases h with
  | intro => exact ⟨_, rfl⟩

theorem exists_tables {n : Nat} {items : List (Tree Float)} (h : ∀ item ∈ items, Writable n item) :
    ∃ tables : List (List (String × Tree Float)), items = tables.map .table := by
  induction items with
  | nil => exact ⟨[], rfl⟩
  | cons item rest ih =>
    obtain ⟨hitem, hrest⟩ := List.forall_mem_cons.1 h
    obtain ⟨entries, rfl⟩ := hitem.exists_entries
    obtain ⟨tables, rfl⟩ := ih hrest
    exact ⟨entries :: tables, rfl⟩

theorem Writable.of_leaves {n : Nat} {leaves : List (String × Tree Float)} (names : (leaves.map Prod.fst).Nodup)
    (leaf : ∀ e ∈ leaves, e.2 = .absent ∨ ReadsLeaf e.2) : Writable n (.table leaves) := by
  have hall : ((leaves ++ []).map Prod.fst).Nodup := by rwa [List.append_nil]
  rw [← List.append_nil leaves]
  exact .intro leaves hall leaf (by simp)

theorem Writable.of_sections {n : Nat} {sections : List (String × Tree Float)}
    (names : (sections.map Prod.fst).Nodup) (held : ∀ e ∈ sections, WritableSection n e.2) :
    Writable n (.table sections) := by
  rw [← List.nil_append sections] at names ⊢
  exact .intro [] names (by simp) held

/-- A list of tables at the end: without items it is a leaf. -/
theorem Writable.with_tables {n : Nat} (leaves : List (String × Tree Float)) {name : String}
    {items : List (Tree Float)} (names : ((leaves ++ [(name, Tree.list items)]).map Prod.fst).Nodup)
    (leaf : ∀ e ∈ leaves, e.2 = .absent ∨ ReadsLeaf e.2) (held : ∀ item ∈ items, Writable n item) :
    Writable (n + 1) (.table (leaves ++ [(name, .list items)])) := by
  by_cases hitems : items = []
  · subst hitems
    exact .of_leaves names (List.forall_mem_append.2 ⟨leaf, by simpa using readsLeaf_empty⟩)
  · exact .intro leaves names leaf (by simpa using .tables hitems held)

theorem leaf_treeOfOption {α : Type} {treeOf : α → Tree Float} (content : Option α)
    (h : ∀ a ∈ content, ReadsLeaf (treeOf a)) :
    treeOfOption treeOf content = .absent ∨ ReadsLeaf (treeOfOption treeOf content) := by
  cases content with
  | none => exact .inl rfl
  | some a => exact .inr (h a rfl)

theorem section_treeOfOption {α : Type} {treeOf : α → Tree Float} (content : Option α) {n : Nat}
    (h : ∀ a ∈ content, Writable n (treeOf a)) : WritableSection (n + 1) (treeOfOption treeOf content) := by
  cases content with
  | none => exact .absent
  | some a => exact .table (h a rfl)

/-! ## Writing a table -/

/-- Write the sections of one entry. -/
def writeSection (fuel : Nat) (path : List String) (w : Written) (e : String × Tree Float) : Written :=
  match Part.ofTree e.2 with
  | .nothing => w
  | .plain _ => w
  | .section_ inner => writeTable fuel .table (path ++ [e.1]) inner w
  | .sections items => items.foldl (fun w inner => writeTable fuel .item (path ++ [e.1]) inner w) w

/-- Write a table under its header. -/
def writeBody (fuel : Nat) (path : List String) (entries : List (String × Tree Float)) (w : Written) : Written :=
  entries.foldl (writeSection fuel path) ((plainPairs entries).foldl (fun w p => w.pair p.1 p.2) w)

theorem writeTable_table (fuel : Nat) :
    writeTable (fuel + 1) .table path entries w = writeBody fuel path entries
      (if (plainPairs entries).isEmpty && hasParts entries then w else w.header "[" "]" path) := rfl

/-! ### Pairs -/

theorem present?_of_plain {tree : Tree Float} {text : String} (h : Part.ofTree tree = .plain text) :
    tree.present? = some tree := by
  cases tree with
  | list items =>
    cases items with
    | nil => rfl
    | cons item rest =>
      rw [Part.ofTree] at h
      · split at h <;> cases h
      · simp
  | absent => cases h
  | table => cases h
  | _ => rfl

/-- A name that was not written yet is not there yet. -/
theorem find?_eq_none_of_content {done : List (String × Tree Float)}
    (hcontent : entriesToTree inner = presentEntries done) (hkey : key ∉ done.map Prod.fst) :
    find? inner key = none := by
  refine Draft.find?_eq_none_iff.2 fun e he heq => hkey ?_
  have hmem : (e.1, e.2.toTree) ∈ presentEntries done := by
    rw [← hcontent, Draft.entriesToTree_eq]
    exact List.mem_map_of_mem he
  rw [Tree.presentEntries_eq] at hmem
  obtain ⟨f, hf, hkept⟩ := List.mem_filterMap.1 hmem
  obtain ⟨kept, -, hpair⟩ := Option.map_eq_some_iff.1 hkept
  exact List.mem_map.2 ⟨f, hf, ((Prod.mk.inj hpair).1.trans heq)⟩

/-- The text so far is read as a page on which the path leads to a table with the entries that are done. Once there
are some, or if the table has a header of its own, the table is there. -/
def Holds (headed : Prop) (path : List String) (plug : Draft.Entries Float → Draft.Entries Float)
    (done : List (String × Tree Float)) (w : Written) : Prop :=
  ∃ page inner, Standing w.text.toList page ∧ Reaches path page.entries inner plug
    ∧ entriesToTree inner = presentEntries done ∧ (headed ∨ inner ≠ [] → page.entries = plug inner)

theorem Holds.of_entries {headed : Prop} {done : List (String × Tree Float)} (hfocus : Focus path plug)
    (hstanding : Standing w.text.toList page) (hpage : page.entries = plug inner)
    (hcontent : entriesToTree inner = presentEntries done) : Holds headed path plug done w :=
  ⟨page, inner, hstanding, hpage ▸ hfocus inner, hcontent, fun _ => hpage⟩

theorem notMem_of_names {done rest : List (String × Tree Float)} {e : String × Tree Float}
    (h : ((done ++ e :: rest).map Prod.fst).Nodup) : e.1 ∉ done.map Prod.fst := by
  rw [List.map_append, List.map_cons] at h
  exact fun hmem => (List.nodup_append.1 h).2.2 _ hmem _ List.mem_cons_self rfl

theorem presentEntries_concat_absent (done : List (String × Tree Float)) (key : String) :
    presentEntries (done ++ [(key, .absent)]) = presentEntries done := by
  rw [Tree.presentEntries_append]
  exact List.append_nil _

theorem content_concat {done : List (String × Tree Float)} {tree : Tree Float} {draft : Draft Float}
    (hcontent : entriesToTree inner = presentEntries done) (htree : tree.present? = some draft.toTree) :
    entriesToTree (inner ++ [(key, draft)]) = presentEntries (done ++ [(key, tree)]) := by
  have hlast : presentEntries [(key, tree)] = [(key, draft.toTree)] := by
    rw [presentEntries, htree]
    rfl
  rw [Draft.entriesToTree_append, Tree.presentEntries_append, hcontent, hlast]
  rfl

/-- The pairs of a table are read back. -/
theorem holds_pairs {headed : Prop} {done leaves : List (String × Tree Float)} (hfocus : Focus path plug)
    (hnames : ((done ++ leaves).map Prod.fst).Nodup) (hleaves : ∀ e ∈ leaves, e.2 = .absent ∨ ReadsLeaf e.2)
    (hstanding : Standing w.text.toList page) (hsection : page.section_ = path) (hpage : page.entries = plug inner)
    (hcontent : entriesToTree inner = presentEntries done) :
    Holds headed path plug (done ++ leaves) ((plainPairs leaves).foldl (fun w p => w.pair p.1 p.2) w) := by
  induction leaves generalizing done w page inner with
  | nil =>
    rw [List.append_nil]
    exact .of_entries hfocus hstanding hpage hcontent
  | cons e leaves ih =>
    obtain ⟨key, tree⟩ := e
    obtain ⟨hleaf, hmore⟩ := List.forall_mem_cons.1 hleaves
    have hfresh := find?_eq_none_of_content hcontent (notMem_of_names hnames)
    rw [List.append_cons] at hnames ⊢
    rcases hleaf with habsent | hleaf
    · dsimp only at habsent
      subst habsent
      exact ih hnames hmore hstanding hsection hpage (hcontent.trans (presentEntries_concat_absent done key).symm)
    · have hplain : plainPairs ((key, tree) :: leaves) = (key, writeValue tree) :: plainPairs leaves := by
        simp [plainPairs, hleaf.plain]
      rw [hplain]
      exact ih hnames hmore (hstanding.pair key hleaf (add?_pair hfocus hsection hpage hfresh tree)) hsection rfl
        (content_concat hcontent (present?_of_plain hleaf.plain))

/-! ### Sections -/

theorem present?_ne_none_of_part {tree : Tree Float} (h : Part.ofTree tree ≠ .nothing) : tree.present? ≠ none := by
  cases tree with
  | absent => exact absurd rfl h
  | _ => simp [Tree.present?]

theorem presentEntries_ne_nil (h : hasParts entries = true) : presentEntries entries ≠ [] := by
  obtain ⟨e, he, hpart⟩ := List.any_eq_true.1 h
  have hne : e.2.present? ≠ none := present?_ne_none_of_part fun heq => by simp [heq] at hpart
  obtain ⟨kept, hkept⟩ := Option.ne_none_iff_exists'.1 hne
  intro hnil
  rw [Tree.presentEntries_eq, List.filterMap_eq_nil_iff] at hnil
  simpa [hkept] using hnil e he

theorem present?_tables (items : List (List (String × Tree Float))) :
    (Tree.list (items.map .table)).present?
      = some (.list (items.map fun entries => .table (presentEntries entries))) := by
  have hitems : presentItems (items.map .table) = items.map fun entries => .table (presentEntries entries) := by
    rw [Tree.presentItems_eq, List.filterMap_map]
    exact List.filterMap_eq_map_iff_forall_eq_some.2 fun _ _ => rfl
  rw [Tree.present?, hitems]

/-- What is written under a table's header is read back: it fills the table that the path leads to. Pairs need a
header of the table's own. -/
def ReadsBody (fuel : Nat) : Prop :=
  ∀ {n : Nat} {headed : Prop} {path : List String} {plug : Draft.Entries Float → Draft.Entries Float}
    {entries : List (String × Tree Float)} {w : Written} {page : Page}, Writable n (.table entries) →
    path.length + n ≤ depthLimit → Tree.depthOfEntries entries ≤ fuel → Focus path plug →
    Standing w.text.toList page → Reaches path page.entries [] plug →
    (page.section_ = path ∧ page.entries = plug [] ∨ ¬headed ∧ plainPairs entries = []) →
    Holds headed path plug entries (writeBody fuel path entries w)

section Below

-- the tables below a table, if the writer's fuel is enough for each of them
variable {fuel n : Nat} {headed : Prop} {done : List (String × Tree Float)}
variable (hbody : ReadsBody fuel) (hfocus : Focus path plug) (hdepth : path.length + (n + 1) ≤ depthLimit)

include hdepth in
theorem length_path_le (key : String) :
    (path ++ [key]).length ≤ depthLimit ∧ (path ++ [key]).length + n ≤ depthLimit := by
  rw [List.length_append, List.length_singleton]
  omega

include hbody hfocus hdepth

/-- A table under a header of its own is read back. -/
theorem exists_headed_body (hkey : find? inner key = none) (slot : Slot Float) (hheld : Writable n (.table entries))
    (hfuel : Tree.depthOfEntries entries ≤ fuel)
    (hstanding : Standing w.text.toList
      { entries := plug (inner ++ [(key, slot.hold [])]), section_ := path ++ [key] }) :
    ∃ next kept, Standing (writeBody fuel (path ++ [key]) entries w).text.toList next
      ∧ next.entries = plug (inner ++ [(key, slot.hold kept)]) ∧ entriesToTree kept = presentEntries entries := by
  have hslot := hfocus.slot hkey slot
  have hholds : Holds True (path ++ [key]) _ entries (writeBody fuel (path ++ [key]) entries w) :=
    hbody hheld (length_path_le hdepth key).2 hfuel hslot hstanding (hslot []) (.inl ⟨rfl, rfl⟩)
  obtain ⟨next, kept, hnext, -, hcontent, hmade⟩ := hholds
  exact ⟨next, kept, hnext, hmade (.inl trivial), hcontent⟩

/-- A table is read back also if it has no pairs and its header is left out. -/
theorem holds_table (hkey : key ∉ done.map Prod.fst) (hheld : Writable n (.table entries))
    (hfuel : Tree.depthOfEntries entries ≤ fuel) (h : Holds headed path plug done w) :
    Holds headed path plug (done ++ [(key, .table entries)])
      (writeTable (fuel + 1) .table (path ++ [key]) entries w) := by
  obtain ⟨page, inner, hstanding, hreaches, hcontent, -⟩ := h
  have hfresh := find?_eq_none_of_content hcontent hkey
  -- it is enough that the table comes about somehow
  suffices hmade : ∃ next origin kept,
      Standing (writeTable (fuel + 1) .table (path ++ [key]) entries w).text.toList next
        ∧ next.entries = plug (inner ++ [(key, (Slot.table origin).hold kept)])
        ∧ entriesToTree kept = presentEntries entries by
    obtain ⟨next, origin, kept, hnext, hpage, hkept⟩ := hmade
    refine .of_entries hfocus hnext hpage (content_concat hcontent ?_)
    rw [Slot.hold, Draft.toTree, hkept]
    rfl
  rw [writeTable_table]
  split
  · rename_i hleft
    obtain ⟨hpairs, hparts⟩ := Bool.and_eq_true_iff.1 hleft
    have hholds : Holds False (path ++ [key]) _ entries (writeBody fuel (path ++ [key]) entries w) :=
      hbody hheld (length_path_le hdepth key).2 hfuel (hfocus.slot hfresh (.table .implied)) hstanding
        (hreaches.implied hfresh) (.inr ⟨id, List.isEmpty_iff.1 hpairs⟩)
    obtain ⟨next, kept, hnext, -, hkept, hmade⟩ := hholds
    have hne : kept ≠ [] := by
      rintro rfl
      exact presentEntries_ne_nil hparts hkept.symm
    exact ⟨next, .implied, kept, hnext, hmade (.inr hne), hkept⟩
  · have hheader : Standing (w.header "[" "]" (path ++ [key])).text.toList _ :=
      hstanding.header (spells_table (by simp) (length_path_le hdepth key).1) (add?_table hreaches hfresh)
    obtain ⟨next, kept, hnext, hpage, hkept⟩ :=
      exists_headed_body hbody hfocus hdepth hfresh (.table .header) hheld hfuel hheader
    exact ⟨next, .header, kept, hnext, hpage, hkept⟩

/-- Further tables of several are read back. -/
theorem exists_more_items (hkey : find? inner key = none) {items : List (List (String × Tree Float))}
    (hheld : ∀ entries ∈ items, Writable n (.table entries))
    (hfuel : ∀ entries ∈ items, Tree.depthOfEntries entries ≤ fuel) {before : List (Draft Float)}
    (hstanding : Standing w.text.toList page) (hpage : page.entries = plug (inner ++ [(key, .tables before)])) :
    ∃ next more,
      Standing (items.foldl (fun w entries => writeTable (fuel + 1) .item (path ++ [key]) entries w) w).text.toList next
        ∧ next.entries = plug (inner ++ [(key, .tables (before ++ more))])
        ∧ itemsToTree more = items.map fun entries => .table (presentEntries entries) := by
  induction items generalizing before w page with
  | nil => exact ⟨page, [], hstanding, by rw [hpage, List.append_nil], rfl⟩
  | cons entries items ih =>
    obtain ⟨hfirst, hrest⟩ := List.forall_mem_cons.1 hheld
    obtain ⟨hfuelFirst, hfuelRest⟩ := List.forall_mem_cons.1 hfuel
    have hheader : Standing (w.header "[[" "]]" (path ++ [key])).text.toList _ :=
      hstanding.header (spells_item (by simp) (length_path_le hdepth key).1) (add?_next_item hfocus hkey hpage)
    obtain ⟨middle, kept, hmiddle, hitem, hkept⟩ :=
      exists_headed_body hbody hfocus hdepth hkey (.item before) hfirst hfuelFirst hheader
    obtain ⟨next, more, hnext, hitems, hmore⟩ := ih hrest hfuelRest hmiddle hitem
    refine ⟨next, .table .header kept :: more, hnext, ?_, ?_⟩
    · rw [hitems, List.append_assoc, List.singleton_append]
    · rw [itemsToTree, hmore, Draft.toTree, hkept, List.map_cons]

/-- Several tables are read back, each from a section of its own. -/
theorem holds_tables (hkey : key ∉ done.map Prod.fst) {items : List (List (String × Tree Float))} (hne : items ≠ [])
    (hheld : ∀ entries ∈ items, Writable n (.table entries))
    (hfuel : ∀ entries ∈ items, Tree.depthOfEntries entries ≤ fuel) (h : Holds headed path plug done w) :
    Holds headed path plug (done ++ [(key, .list (items.map .table))])
      (items.foldl (fun w entries => writeTable (fuel + 1) .item (path ++ [key]) entries w) w) := by
  obtain ⟨entries, items, rfl⟩ := List.exists_cons_of_ne_nil hne
  obtain ⟨page, inner, hstanding, hreaches, hcontent, -⟩ := h
  obtain ⟨hfirst, hrest⟩ := List.forall_mem_cons.1 hheld
  obtain ⟨hfuelFirst, hfuelRest⟩ := List.forall_mem_cons.1 hfuel
  have hfresh := find?_eq_none_of_content hcontent hkey
  have hheader : Standing (w.header "[[" "]]" (path ++ [key])).text.toList _ :=
    hstanding.header (spells_item (by simp) (length_path_le hdepth key).1) (add?_item hreaches hfresh)
  obtain ⟨middle, kept, hmiddle, hitem, hkept⟩ :=
    exists_headed_body hbody hfocus hdepth hfresh (.item []) hfirst hfuelFirst hheader
  obtain ⟨next, more, hnext, hitems, hmore⟩ :=
    exists_more_items hbody hfocus hdepth hfresh hrest hfuelRest hmiddle hitem
  refine .of_entries hfocus hnext hitems (content_concat hcontent ?_)
  rw [present?_tables, Draft.toTree, List.nil_append, List.singleton_append, itemsToTree, hmore, Draft.toTree, hkept,
    List.map_cons]

end Below

theorem depth_le_depthOfEntries {e : String × Tree Float} (he : e ∈ entries) :
    e.2.depth ≤ Tree.depthOfEntries entries := by
  induction entries with
  | nil => cases he
  | cons first rest ih =>
    obtain ⟨name, tree⟩ := first
    rw [Tree.depthOfEntries]
    rcases List.mem_cons.1 he with rfl | hrest
    · exact Nat.le_max_left _ _
    · exact Nat.le_trans (ih hrest) (Nat.le_max_right _ _)

theorem depth_le_depthOfItems {items : List (Tree Float)} {item : Tree Float} (h : item ∈ items) :
    item.depth ≤ Tree.depthOfItems items := by
  induction items with
  | nil => cases h
  | cons first rest ih =>
    rw [Tree.depthOfItems]
    rcases List.mem_cons.1 h with rfl | hrest
    · exact Nat.le_max_left _ _
    · exact Nat.le_trans (ih hrest) (Nat.le_max_right _ _)

theorem tablesOf?_map_table (items : List (List (String × Tree Float))) :
    tablesOf? (items.map .table) = some items := by
  induction items with
  | nil => rfl
  | cons entries items ih => rw [List.map_cons, tablesOf?, ih, Option.map_some]

theorem ofTree_tables {items : List (List (String × Tree Float))} (h : items ≠ []) :
    Part.ofTree (.list (items.map .table)) = .sections items := by
  obtain ⟨entries, items, rfl⟩ := List.exists_cons_of_ne_nil h
  have htables := tablesOf?_map_table (entries :: items)
  rw [List.map_cons] at htables ⊢
  rw [Part.ofTree, htables]
  simp

/-- Whatever has sections of its own is read back from them. -/
theorem holds_section {fuel n : Nat} {headed : Prop} {done : List (String × Tree Float)} {e : String × Tree Float}
    (hbody : ∀ k < fuel, ReadsBody k) (hfocus : Focus path plug) (hkey : e.1 ∉ done.map Prod.fst)
    (hheld : WritableSection n e.2) (hdepth : path.length + n ≤ depthLimit) (hfuel : e.2.depth ≤ fuel)
    (h : Holds headed path plug done w) : Holds headed path plug (done ++ [e]) (writeSection fuel path w e) := by
  obtain ⟨key, tree⟩ := e
  cases hheld with
  | absent =>
    obtain ⟨page, inner, hstanding, hreaches, hcontent, hmade⟩ := h
    exact ⟨page, inner, hstanding, hreaches, hcontent.trans (presentEntries_concat_absent done key).symm, hmade⟩
  | @table n _ held =>
    obtain ⟨entries, rfl⟩ := held.exists_entries
    have hlt : Tree.depthOfEntries entries + 1 ≤ fuel := hfuel
    obtain ⟨k, rfl⟩ := Nat.exists_eq_add_one_of_ne_zero (Nat.ne_of_gt (Nat.zero_lt_of_lt hlt))
    exact holds_table (hbody k (Nat.lt_succ_self k)) hfocus hdepth hkey held (Nat.le_of_succ_le_succ hlt) h
  | @tables n _ ne held =>
    obtain ⟨items, rfl⟩ := exists_tables held
    have hitems : items ≠ [] := List.map_eq_nil_iff.not.1 ne
    have hlt : Tree.depthOfItems (items.map .table) + 1 ≤ fuel := hfuel
    obtain ⟨k, rfl⟩ := Nat.exists_eq_add_one_of_ne_zero (Nat.ne_of_gt (Nat.zero_lt_of_lt hlt))
    have hdepths : ∀ entries ∈ items, Tree.depthOfEntries entries ≤ k := fun entries hentries => by
      have hle : (Tree.table entries).depth ≤ Tree.depthOfItems (items.map .table) :=
        depth_le_depthOfItems (List.mem_map_of_mem hentries)
      rw [Tree.depth] at hle
      omega
    have hwritten : writeSection (k + 1) path w (key, .list (items.map .table))
        = items.foldl (fun w entries => writeTable (k + 1) .item (path ++ [key]) entries w) w := by
      rw [writeSection, ofTree_tables hitems]
    rw [hwritten]
    exact holds_tables (hbody k (Nat.lt_succ_self k)) hfocus hdepth hkey hitems
      (fun entries hentries => held _ (List.mem_map_of_mem hentries)) hdepths h

theorem holds_sections {fuel n : Nat} {headed : Prop} {done sections : List (String × Tree Float)}
    (hbody : ∀ k < fuel, ReadsBody k) (hfocus : Focus path plug)
    (hnames : ((done ++ sections).map Prod.fst).Nodup) (hheld : ∀ e ∈ sections, WritableSection n e.2)
    (hdepth : path.length + n ≤ depthLimit) (hfuel : ∀ e ∈ sections, e.2.depth ≤ fuel)
    (h : Holds headed path plug done w) :
    Holds headed path plug (done ++ sections) (sections.foldl (writeSection fuel path) w) := by
  induction sections generalizing done w with
  | nil => rwa [List.append_nil]
  | cons e sections ih =>
    obtain ⟨hfirst, hrest⟩ := List.forall_mem_cons.1 hheld
    obtain ⟨hfuelFirst, hfuelRest⟩ := List.forall_mem_cons.1 hfuel
    have hsection := holds_section hbody hfocus (notMem_of_names hnames) hfirst hdepth hfuelFirst h
    rw [List.append_cons] at hnames ⊢
    exact ih hnames hrest hfuelRest hsection

/-! ### The whole table -/

theorem plainPairs_append (front back : List (String × Tree Float)) :
    plainPairs (front ++ back) = plainPairs front ++ plainPairs back := List.filterMap_append

theorem plainPairs_sections {n : Nat} {sections : List (String × Tree Float)}
    (h : ∀ e ∈ sections, WritableSection n e.2) : plainPairs sections = [] := by
  refine List.filterMap_eq_nil_iff.2 fun e he => ?_
  obtain ⟨key, tree⟩ := e
  have hheld := h _ he
  cases hheld with
  | absent => rfl
  | table held =>
    obtain ⟨entries, rfl⟩ := held.exists_entries
    rfl
  | tables ne held =>
    obtain ⟨items, rfl⟩ := exists_tables held
    simp [ofTree_tables (List.map_eq_nil_iff.not.1 ne)]

theorem foldl_leaves {leaves : List (String × Tree Float)} (h : ∀ e ∈ leaves, e.2 = .absent ∨ ReadsLeaf e.2)
    (fuel : Nat) (path : List String) (w : Written) : leaves.foldl (writeSection fuel path) w = w := by
  induction leaves generalizing w with
  | nil => rfl
  | cons e leaves ih =>
    obtain ⟨hleaf, hrest⟩ := List.forall_mem_cons.1 h
    have hsame : writeSection fuel path w e = w := by
      rcases hleaf with habsent | hleaf
      · rw [writeSection, habsent]
        rfl
      · rw [writeSection, hleaf.plain]
    rw [List.foldl_cons, hsame, ih hrest]

theorem presentEntries_eq_nil_of_plainPairs {leaves : List (String × Tree Float)}
    (h : ∀ e ∈ leaves, e.2 = .absent ∨ ReadsLeaf e.2) (hpairs : plainPairs leaves = []) :
    presentEntries leaves = [] := by
  rw [Tree.presentEntries_eq, List.filterMap_eq_nil_iff]
  intro e he
  rcases h e he with habsent | hleaf
  · rw [habsent]
    rfl
  · have hnone := List.filterMap_eq_nil_iff.1 hpairs e he
    simp [hleaf.plain] at hnone

/-- Every table that TOML holds is read back. -/
theorem readsBody (fuel : Nat) : ReadsBody fuel := by
  induction fuel using Nat.strongRecOn with
  | ind fuel ih =>
    intro n headed path plug entries w page hheld hdepth hfuel hfocus hstanding hreaches hstart
    cases hheld with
    | @intro _ leaves sections names leaf held =>
      have hpairs : Holds headed path plug leaves ((plainPairs leaves).foldl (fun w p => w.pair p.1 p.2) w) := by
        rcases hstart with ⟨hsection, hpage⟩ | ⟨hheaded, hnone⟩
        · have hleaves : ((([] ++ leaves).map Prod.fst).Nodup) := by
            rw [List.map_append] at names
            exact (List.nodup_append.1 names).1
          exact holds_pairs hfocus hleaves leaf hstanding hsection hpage rfl
        · rw [plainPairs_append, List.append_eq_nil_iff] at hnone
          rw [hnone.1]
          refine ⟨page, [], hstanding, hreaches, (presentEntries_eq_nil_of_plainPairs leaf hnone.1).symm, ?_⟩
          rintro (h | h)
          · exact absurd h hheaded
          · exact absurd rfl h
      have hdepths : ∀ e ∈ sections, e.2.depth ≤ fuel := fun e he =>
        Nat.le_trans (depth_le_depthOfEntries (List.mem_append_right leaves he)) hfuel
      rw [writeBody, plainPairs_append, plainPairs_sections held, List.append_nil, List.foldl_append,
        foldl_leaves leaf]
      exact holds_sections ih hfocus names held hdepth hdepths hpairs

/-- A document is read back as what is there of the tree that it was written of. -/
theorem readTree?_write {n : Nat} {tree : Tree Float} (h : Writable n tree) (hdepth : n ≤ depthLimit) :
    readTree? (write tree) = tree.present? := by
  obtain ⟨entries, rfl⟩ := h.exists_entries
  have hwritten : write (.table entries) = (writeBody (Tree.table entries).depth [] entries ⟨"", true⟩).text := rfl
  have hblank : Standing (⟨"", true⟩ : Written).text.toList { entries := [], section_ := [] } := .blank
  have hholds : Holds True [] id entries (writeBody (Tree.table entries).depth [] entries ⟨"", true⟩) :=
    readsBody _ h (by simpa using hdepth) (Nat.le_succ _) Focus.root hblank (Focus.root []) (.inl ⟨rfl, rfl⟩)
  obtain ⟨page, inner, hstanding, -, hcontent, hmade⟩ := hholds
  have hpage : page.entries = inner := hmade (.inl trivial)
  rw [hwritten, hstanding.readTree?_eq, hpage, Draft.toTree, hcontent]
  rfl

end ActorPlacement.Toml
