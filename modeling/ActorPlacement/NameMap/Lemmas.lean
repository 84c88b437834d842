import ActorPlacement.NameMap.Basic

/-!
# Look-ups in maps from names

What `NameMap.find?` answers after each operation, and `NameMap.ext_find?`: a map is determined by
its answers.
-/

namespace ActorPlacement

variable {V W : Type}

theorem findEntry_insertEntry (name other : String) (value : V) (entries : List (String × V)) :
    findEntry other (insertEntry name value entries)
      = if name = other then some value else findEntry other entries := by
  induction entries with
  | nil => rfl
  | cons x rest ih =>
    obtain ⟨head, kept⟩ := x
    simp only [insertEntry]
    split
    · rfl
    · split
      · rename_i heq
        subst heq
        by_cases h : name = other <;> simp [findEntry, h]
      · rename_i hne
        simp only [findEntry, ih]
        by_cases h : head = other
        · have hno : ¬name = other := fun h' => hne (h'.trans h.symm)
          simp [h, hno]
        · simp [h]

theorem findEntry_adjustEntry (name other : String) (f : V → V) (entries : List (String × V)) :
    findEntry other (adjustEntry name f entries)
      = if name = other then (findEntry other entries).map f else findEntry other entries := by
  induction entries with
  | nil => simp [adjustEntry, findEntry]
  | cons x rest ih =>
    obtain ⟨head, value⟩ := x
    by_cases hname : head = name <;> by_cases hother : head = other
    · simp [adjustEntry, findEntry, ← hname, ← hother]
    · have hno : ¬name = other := fun h => hother (hname.trans h)
      simp [adjustEntry, findEntry, hname, hno]
    · subst hother
      have hno : ¬name = head := fun h => hname h.symm
      simp [adjustEntry, findEntry, hname, hno]
    · simp [adjustEntry, findEntry, hname, hother, ih]

theorem findEntry_map (f : V → W) (name : String) (entries : List (String × V)) :
    findEntry name (entries.map fun e => (e.1, f e.2)) = (findEntry name entries).map f := by
  induction entries with
  | nil => rfl
  | cons x rest ih => by_cases h : x.1 = name <;> simp [findEntry, h, ih]

theorem mem_of_findEntry {name : String} {value : V} {entries : List (String × V)}
    (h : findEntry name entries = some value) : (name, value) ∈ entries := by
  induction entries with
  | nil => simp [findEntry] at h
  | cons x rest ih =>
    obtain ⟨head, kept⟩ := x
    by_cases hx : head = name
    · simp only [findEntry, hx, if_true, Option.some.injEq] at h
      simp [hx, h]
    · simp only [findEntry, hx, if_false] at h
      exact List.mem_cons_of_mem _ (ih h)

/-- A name that comes before all of a list is not in it. -/
theorem findEntry_eq_none_of_lt {name : String} {entries : List (String × V)} (h : ∀ e ∈ entries, name < e.1) :
    findEntry name entries = none := by
  cases hfind : findEntry name entries with
  | none => rfl
  | some value => exact absurd (h _ (mem_of_findEntry hfind)) (String.lt_irrefl name)

theorem Ascending.findEntry {name : String} {value : V} {entries : List (String × V)}
    (ha : Ascending entries) (h : (name, value) ∈ entries) :
    findEntry name entries = some value := by
  induction entries with
  | nil => simp at h
  | cons x rest ih =>
    have hx := List.pairwise_cons.1 ha
    rcases List.mem_cons.1 h with rfl | h
    · simp [ActorPlacement.findEntry]
    · have hlt : x.1 < name := hx.1 _ h
      have hne : ¬x.1 = name := fun he => String.lt_irrefl _ (he ▸ hlt)
      simp [ActorPlacement.findEntry, hne, ih hx.2 h]

namespace NameMap

@[simp] theorem find?_empty (name : String) : (empty : NameMap V).find? name = none := rfl

theorem find?_insert (m : NameMap V) (name other : String) (value : V) :
    (m.insert name value).find? other = if name = other then some value else m.find? other :=
  findEntry_insertEntry name other value m.entries

@[simp] theorem find?_insert_self (m : NameMap V) (name : String) (value : V) :
    (m.insert name value).find? name = some value := by simp [find?_insert]

theorem find?_adjust (m : NameMap V) (name other : String) (f : V → V) :
    (m.adjust name f).find? other
      = if name = other then (m.find? other).map f else m.find? other :=
  findEntry_adjustEntry name other f m.entries

@[simp] theorem find?_map (m : NameMap V) (f : V → W) (name : String) :
    (m.map f).find? name = (m.find? name).map f :=
  findEntry_map f name m.entries

@[simp] theorem names_adjust (m : NameMap V) (name : String) (f : V → V) :
    (m.adjust name f).names = m.names :=
  map_fst_adjustEntry name f m.entries

theorem find?_eq_some_iff (m : NameMap V) (name : String) (value : V) :
    m.find? name = some value ↔ (name, value) ∈ m.entries :=
  ⟨mem_of_findEntry, m.ascending.findEntry⟩

theorem mem_names_of_find? {m : NameMap V} {name : String} {value : V} (h : m.find? name = some value) :
    name ∈ m.names :=
  List.mem_map_of_mem (f := Prod.fst) (mem_of_findEntry h)

theorem mem_names_iff {m : NameMap V} {name : String} : name ∈ m.names ↔ ∃ value, m.find? name = some value := by
  constructor
  · intro h
    obtain ⟨e, he, rfl⟩ := List.mem_map.1 h
    exact ⟨e.2, (find?_eq_some_iff m e.1 e.2).2 he⟩
  · rintro ⟨value, hfind⟩
    exact mem_names_of_find? hfind

theorem nodup_names (m : NameMap V) : m.names.Nodup := by
  refine (ascending_iff_map_fst.1 m.ascending).imp fun {a b} (hlt : a < b) (heq : a = b) => ?_
  exact String.lt_irrefl b (heq ▸ hlt)

/-- The entries of a list change a map one after the other, each under its own name: what the list says
about a name decides the answer. -/
theorem find?_foldl {U : Type} {change : NameMap V → String → U → NameMap V}
    (answer : Option V → U → Option V)
    (hchange : ∀ m name u other,
      (change m name u).find? other = if name = other then answer (m.find? other) u else m.find? other)
    {entries : List (String × U)} (ha : Ascending entries) (m : NameMap V) (name : String) :
    (entries.foldl (fun m e => change m e.1 e.2) m).find? name
      = (findEntry name entries).elim (m.find? name) (answer (m.find? name)) := by
  induction entries generalizing m with
  | nil => rfl
  | cons x rest ih =>
    obtain ⟨head, u⟩ := x
    have hx := List.pairwise_cons.1 ha
    rw [List.foldl_cons, ih hx.2, hchange]
    by_cases h : head = name
    · -- the names ascend, so the rest of the list does not mention this one again
      have hrest : findEntry name rest = none := findEntry_eq_none_of_lt (h ▸ hx.1)
      simp [findEntry, h, hrest]
    · simp [findEntry, h]

/-- Of two maps put over one another the upper one answers first. -/
theorem find?_insertAll (m n : NameMap V) (name : String) :
    (m.insertAll n).find? name = (n.find? name).or (m.find? name) := by
  rw [insertAll, find?_foldl (fun _ value => some value) (fun m name value other => find?_insert m name other value)
    n.ascending, ← find?]
  cases n.find? name <;> rfl

/-- In an ascending list the least entry comes first, so membership determines the list. -/
theorem entries_eq_of_mem_iff {a b : List (String × V)} (ha : Ascending a) (hb : Ascending b)
    (h : ∀ e, e ∈ a ↔ e ∈ b) : a = b := by
  induction a generalizing b with
  | nil =>
    cases b with
    | nil => rfl
    | cons y _ => exact absurd ((h y).2 List.mem_cons_self) List.not_mem_nil
  | cons x xs ih =>
    cases b with
    | nil => exact absurd ((h x).1 List.mem_cons_self) List.not_mem_nil
    | cons y ys =>
      have hx := List.pairwise_cons.1 ha
      have hy := List.pairwise_cons.1 hb
      have heq : x = y := by
        rcases List.mem_cons.1 ((h x).1 List.mem_cons_self) with hxy | hmem
        · exact hxy
        · rcases List.mem_cons.1 ((h y).2 List.mem_cons_self) with hyx | hmem'
          · exact hyx.symm
          · exact absurd (String.lt_trans (hx.1 y hmem') (hy.1 x hmem)) (String.lt_irrefl _)
      subst heq
      congr 1
      refine ih hx.2 hy.2 fun e => ⟨fun he => ?_, fun he => ?_⟩
      · rcases List.mem_cons.1 ((h e).1 (List.mem_cons_of_mem _ he)) with rfl | h'
        · exact absurd (hx.1 _ he) (String.lt_irrefl _)
        · exact h'
      · rcases List.mem_cons.1 ((h e).2 (List.mem_cons_of_mem _ he)) with rfl | h'
        · exact absurd (hy.1 _ he) (String.lt_irrefl _)
        · exact h'

/-- Maps that answer every look-up alike are equal. -/
theorem ext_find? {m n : NameMap V} (h : ∀ name, m.find? name = n.find? name) : m = n := by
  refine ext_entries (entries_eq_of_mem_iff m.ascending n.ascending fun e => ?_)
  rw [← find?_eq_some_iff m e.1 e.2, ← find?_eq_some_iff n e.1 e.2, h e.1]

/-- A map of pairs with no name twice answers what they say. -/
theorem find?_ofList_eq_some_iff {pairs : List (String × V)} {name : String} {value : V}
    (h : (pairs.map Prod.fst).Nodup) : (ofList pairs).find? name = some value ↔ (name, value) ∈ pairs := by
  have hfold : ∀ m : NameMap V, (∀ e ∈ pairs, m.find? e.1 = none) →
      ((pairs.foldl (fun m e => m.insert e.1 e.2) m).find? name = some value
        ↔ (name, value) ∈ pairs ∨ m.find? name = some value) := by
    induction pairs with
    | nil => simp
    | cons e rest ih =>
      intro m hnew
      obtain ⟨hfirst, hrest⟩ := List.nodup_cons.1 h
      obtain ⟨hself, hothers⟩ := List.forall_mem_cons.1 hnew
      have hlater : ∀ other ∈ rest, (m.insert e.1 e.2).find? other.1 = none := by
        intro other hother
        have hne : e.1 ≠ other.1 := fun heq => hfirst (heq ▸ List.mem_map_of_mem hother)
        rw [find?_insert, if_neg hne]
        exact hothers other hother
      rw [List.foldl_cons, ih hrest _ hlater, find?_insert, List.mem_cons]
      obtain ⟨first, kept⟩ := e
      by_cases hname : first = name
      · subst hname
        simp [hself, or_comm, eq_comm]
      · simp [hname, Ne.symm hname]
  simpa [ofList] using hfold empty

/-- A map is made of its entries. -/
theorem ofList_entries (m : NameMap V) : ofList m.entries = m := by
  refine ext_find? fun name => Option.ext fun value => ?_
  rw [find?_ofList_eq_some_iff m.nodup_names, find?_eq_some_iff]

theorem map_insert (m : NameMap V) (name : String) (value : V) (f : V → W) :
    (m.insert name value).map f = (m.map f).insert name (f value) := by
  refine ext_find? fun other => ?_
  simp only [find?_map, find?_insert, apply_ite (Option.map f), Option.map_some]

/-- Values may change before or after the map is made. -/
theorem map_ofList (pairs : List (String × V)) (f : V → W) :
    (ofList pairs).map f = ofList (pairs.map fun e => (e.1, f e.2)) := by
  have hfold : ∀ m : NameMap V, (pairs.foldl (fun m e => m.insert e.1 e.2) m).map f
      = (pairs.map fun e => (e.1, f e.2)).foldl (fun m e => m.insert e.1 e.2) (m.map f) := by
    induction pairs with
    | nil => exact fun _ => rfl
    | cons e rest ih =>
      intro m
      rw [List.foldl_cons, ih, map_insert]
      rfl
  exact hfold empty

end NameMap

end ActorPlacement
