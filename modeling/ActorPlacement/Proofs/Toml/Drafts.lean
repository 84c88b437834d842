import ActorPlacement.Toml.Reader

/-!
# Pages at the end of which lines are added

A header's path leads to a table, and the table is put back in its place when it has changed (`Draft.Reaches`,
`Draft.Focus`). A path that is one key longer leads to the table under that key: to one that stands there, to the last
of several, or to one that is made on the way. So a pair adds to the table of the last header, and a header adds to
the table that its path leads to, under a key that is new there or holds the tables before it.
-/

namespace ActorPlacement.Toml

namespace Draft

variable {Q : Type} {path : List String} {key : String} {entries inner : Entries Q}
variable {plug : Entries Q → Entries Q}

/-! ## Entries -/

theorem entriesToTree_eq (entries : Entries Q) : entriesToTree entries = entries.map fun e => (e.1, e.2.toTree) := by
  induction entries with
  | nil => rfl
  | cons e rest ih => rw [entriesToTree, ih, List.map_cons]

theorem entriesToTree_append (front back : Entries Q) :
    entriesToTree (front ++ back) = entriesToTree front ++ entriesToTree back := by
  simp only [entriesToTree_eq, List.map_append]

theorem find?_eq_none_iff : find? entries key = none ↔ ∀ e ∈ entries, e.1 ≠ key := by
  simp [find?]

theorem find?_append_self (h : find? inner key = none) (draft : Draft Q) :
    find? (inner ++ [(key, draft)]) key = some draft := by
  rw [find?, Option.map_eq_none_iff] at h
  simp [find?, h]

theorem put_new (h : find? inner key = none) (draft : Draft Q) : put inner key draft = inner ++ [(key, draft)] := by
  refine if_neg fun hany => ?_
  obtain ⟨e, he, heq⟩ := List.any_eq_true.1 hany
  exact find?_eq_none_iff.1 h e he (by simpa using heq)

theorem put_append_self (h : find? inner key = none) (draft next : Draft Q) :
    put (inner ++ [(key, draft)]) key next = inner ++ [(key, next)] := by
  have hothers : (inner.map fun e => if e.1 == key then (key, next) else e) = inner := by
    refine (List.map_congr_left fun e he => ?_).trans (List.map_id inner)
    exact if_neg (by simpa using find?_eq_none_iff.1 h e he)
  rw [put, if_pos (by simp), List.map_append, hothers]
  simp

/-! ## Where headers lead -/

/-- A header's path leads to a table with the entries `inner`, and `plug` puts the table back when it has changed. -/
def Reaches (path : List String) (entries inner : Entries Q) (plug : Entries Q → Entries Q) : Prop :=
  ∀ change, within? .implied (fun _ => change) path .header entries = (change inner).map plug

/-- The table that `plug` puts back is reached again. -/
def Focus (path : List String) (plug : Entries Q → Entries Q) : Prop := ∀ inner, Reaches path (plug inner) inner plug

/-- What the last key of a path holds: a table, or the last of several tables. -/
inductive Slot (Q : Type) where
  | table (origin : Origin)
  | item (done : List (Draft Q))

/-- A table in its place. -/
def Slot.hold : Slot Q → Entries Q → Draft Q
  | table origin, entries => .table origin entries
  | item done, entries => .tables (done ++ [.table .header entries])

theorem within?_append (change : Entries Q → Option (Entries Q)) (path : List String) (key : String) (origin : Origin)
    (entries : Entries Q) :
    within? .implied (fun _ => change) (path ++ [key]) origin entries
      = within? .implied (fun _ => within? .implied (fun _ => change) [key] .header) path origin entries := by
  induction path generalizing origin entries with
  | nil => rfl
  | cons name path ih =>
    rw [List.cons_append, within?, within?]
    simp only [ih]

theorem within?_slot (h : find? inner key = none) (slot : Slot Q) (change : Entries Q → Option (Entries Q))
    (entries : Entries Q) :
    within? .implied (fun _ => change) [key] .header (inner ++ [(key, slot.hold entries)])
      = (change entries).map fun entries => inner ++ [(key, slot.hold entries)] := by
  rw [within?, find?_append_self h]
  cases slot <;> simp [Slot.hold, within?, put_append_self h]

theorem Focus.root : Focus [] (id : Entries Q → Entries Q) := fun inner change => by
  rw [within?, Option.map_id, id, id]

theorem Focus.slot (h : Focus path plug) (hkey : find? inner key = none) (slot : Slot Q) :
    Focus (path ++ [key]) fun entries => plug (inner ++ [(key, slot.hold entries)]) := by
  intro entries change
  rw [within?_append, h, within?_slot hkey, Option.map_map]
  rfl

/-- A table that is missing is made on the way. -/
theorem Reaches.implied (h : Reaches path entries inner plug) (hkey : find? inner key = none) :
    Reaches (path ++ [key]) entries [] fun made => plug (inner ++ [(key, (Slot.table .implied).hold made)]) := by
  intro change
  have hmade : within? .implied (fun _ => change) [key] .header inner
      = (change []).map fun made => inner ++ [(key, (Slot.table .implied).hold made)] := by
    rw [within?, hkey]
    simp only [within?, put_new hkey, Slot.hold]
  rw [within?_append, h, hmade, Option.map_map]
  rfl

end Draft

/-! ## What a line adds -/

open Draft (Reaches Focus Slot find?)

variable {path : List String} {key : String} {page : Page} {inner : Draft.Entries Float}
variable {plug : Draft.Entries Float → Draft.Entries Float}

theorem splitPath?_append (path : List String) (key : String) : splitPath? (path ++ [key]) = some (path, key) := by
  simp [splitPath?]

theorem add?_pair (hfocus : Focus path plug) (hsection : page.section_ = path) (hpage : page.entries = plug inner)
    (hkey : find? inner key = none) (tree : Tree Float) :
    page.add? (.pair [key] tree) = some { page with entries := plug (inner ++ [(key, .value tree)]) } := by
  have hadds : Draft.addPair? inner [] key tree = some (inner ++ [(key, .value tree)]) := by
    simp [Draft.addPair?, Draft.within?, hkey]
  have hwithin := hfocus inner fun inner => Draft.addPair? inner [] key tree
  rw [hadds, ← hpage, ← hsection] at hwithin
  simp [Page.add?, splitPath?, hwithin]

theorem add?_table (h : Reaches path page.entries inner plug) (hkey : find? inner key = none) :
    page.add? (.table (path ++ [key]))
      = some { entries := plug (inner ++ [(key, (Slot.table .header).hold [])]), section_ := path ++ [key] } := by
  have hstarts : Draft.startTable? page.entries path key
      = some (plug (inner ++ [(key, (Slot.table .header).hold [])])) := by
    refine (h _).trans ?_
    simp only [hkey, Draft.put_new hkey]
    rfl
  simp [Page.add?, splitPath?_append, hstarts]

/-- The first header of several tables. -/
theorem add?_item (h : Reaches path page.entries inner plug) (hkey : find? inner key = none) :
    page.add? (.item (path ++ [key]))
      = some { entries := plug (inner ++ [(key, (Slot.item []).hold [])]), section_ := path ++ [key] } := by
  have hstarts : Draft.startItem? page.entries path key = some (plug (inner ++ [(key, (Slot.item []).hold [])])) := by
    refine (h _).trans ?_
    simp only [hkey, Draft.put_new hkey]
    rfl
  simp [Page.add?, splitPath?_append, hstarts]

/-- A further one. -/
theorem add?_next_item (hfocus : Focus path plug) (hkey : find? inner key = none) {done : List (Draft Float)}
    (hpage : page.entries = plug (inner ++ [(key, .tables done)])) :
    page.add? (.item (path ++ [key]))
      = some { entries := plug (inner ++ [(key, (Slot.item done).hold [])]), section_ := path ++ [key] } := by
  have hstarts : Draft.startItem? page.entries path key = some (plug (inner ++ [(key, (Slot.item done).hold [])])) := by
    rw [hpage]
    refine (hfocus _ _).trans ?_
    simp only [Draft.find?_append_self hkey, Draft.put_append_self hkey]
    rfl
  simp [Page.add?, splitPath?_append, hstarts]

end ActorPlacement.Toml
