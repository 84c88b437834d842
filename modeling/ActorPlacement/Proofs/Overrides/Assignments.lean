import ActorPlacement.NameMap.Lemmas
import ActorPlacement.Overrides.Basic
import ActorPlacement.Proofs.Json.Compact
import ActorPlacement.Proofs.Options.Validity
import ActorPlacement.Tree.Record

/-!
# Assignments against objects

The entries of a JSON object may be written as assignments, each a key, `=` and the value in compact form. Read one
after the other these make the overrides that the object says, or stop at the same entry for the same reason
(`Overrides.assignAll_map_assignment`): a key is told by the first `=`, which no key holds, and the rest of the text
is the value as it was written, whatever that holds.

`Overrides.assignHere` reads an assignment into overrides that stay at hand when it fails. It changes them last, so
one that fails has changed nothing.
-/

namespace ActorPlacement.Overrides

section InPlace

variable {Q : Type} [WrittenQuantity Q] {overrides after : Overrides Q} {raw : String} {bad : BadOption Q}

/-! ## Overrides changed in place -/

/-- Read `key=value` and put the value under the key of the overrides at hand. -/
def assignHere (raw : String) : EStateM (BadOption Q) (Overrides Q) Unit :=
  match cutAt? '=' raw with
  | none => throw ⟨raw, .notAssignment⟩
  | some (key, value) => do
    let value ← liftExcept (underKey (trimmed key) (valueOfText (trimmed value)))
    modify fun overrides => overrides.insert (trimmed key) value

/-- What is answered of overrides that were changed in place: the overrides themselves, or what stopped the
changes. -/
def answerOf : EStateM.Result (BadOption Q) (Overrides Q) Unit → Except (BadOption Q) (Overrides Q)
  | .ok () after => .ok after
  | .error bad _ => .error bad

/-- The change comes last: what fails has changed nothing. -/
theorem run_assignHere (overrides : Overrides Q) (raw : String) :
    (assignHere raw).run overrides
      = match overrides.assign raw with
        | .ok after => .ok () after
        | .error bad => .error bad overrides := by
  unfold assignHere assign
  cases cutAt? '=' raw with
  | none => rfl
  | some cut =>
    dsimp only
    cases underKey (trimmed cut.1) (valueOfText (Q := Q) (trimmed cut.2)) <;> rfl

/-- Assignments that are read in place, up to the first that fails, are read as `assignAll` reads them. -/
theorem assignAll_eq_answerOf (overrides : Overrides Q) (raws : List String) :
    overrides.assignAll raws = answerOf ((forM raws assignHere).run overrides) := by
  induction raws generalizing overrides with
  | nil => rfl
  | cons raw rest ih =>
    rw [assignAll, List.foldlM_cons, List.forM_cons, EStateM.run_bind, run_assignHere]
    cases overrides.assign raw with
    | ok next => exact ih next
    | error bad => rfl

/-- A text assigns a value to a key: the key stands before its first `=`, the value after it, and blanks around
either do not count. -/
def Assigns (raw key : String) (value : OptionValue Q) : Prop :=
  ∃ front back, '=' ∉ front.toList ∧ raw = front ++ "=" ++ back ∧ trimmed front = key
    ∧ valueOfText (trimmed back) = .ok value

theorem assigns_of_assign (h : overrides.assign raw = .ok after) :
    ∃ key value, Assigns raw key value ∧ after = overrides.insert key value := by
  unfold assign at h
  split at h
  · cases h
  · rename_i front back hcut
    obtain ⟨hfront, hraw⟩ := cutAt?_eq_some_iff_append.1 hcut
    obtain ⟨value, hvalue, rfl⟩ := except_map_eq_ok.1 h
    exact ⟨trimmed front, value, ⟨front, back, hfront, hraw, rfl, underKey_eq_ok.1 hvalue⟩, rfl⟩

end InPlace

/-! ## Objects written as assignments -/

/-- An entry of a JSON object as an assignment. -/
def assignment (entry : String × Tree Float) : String := entry.1 ++ "=" ++ Json.compact entry.2

/-- An assignment that was written is read as the key and the value that it was written of. -/
theorem assign_assignment {name : String} {value : Tree Float} (overrides : Overrides Float)
    (hmark : '=' ∉ name.toList) (hname : trimmed name = name)
    (hread : Json.readValue? (Json.compact value) = some value) :
    overrides.assign (assignment (name, value))
      = (underKey name (OptionValue.ofTree value)).map (overrides.insert name) := by
  have hcut : cutAt? '=' (assignment (name, value)) = some (name, Json.compact value) :=
    cutAt?_eq_some_iff_append.2 ⟨hmark, rfl⟩
  simp only [assign, hcut, hname, Json.trimmed_compact, valueOfText, hread]

theorem assignAll_map_assignment {entries : List (String × Tree Float)} (overrides : Overrides Float)
    (hkeys : ∀ e ∈ entries, '=' ∉ e.1.toList ∧ trimmed e.1 = e.1)
    (hread : ∀ e ∈ entries, Json.readValue? (Json.compact e.2) = some e.2) :
    overrides.assignAll (entries.map assignment) = ofEntries.go overrides entries := by
  induction entries generalizing overrides with
  | nil => rfl
  | cons e rest ih =>
    obtain ⟨⟨hmark, hname⟩, hkeys⟩ := List.forall_mem_cons.1 hkeys
    obtain ⟨hvalue, hread⟩ := List.forall_mem_cons.1 hread
    rw [assignAll, List.map_cons, List.foldlM_cons, assign_assignment overrides hmark hname hvalue, ofEntries.go]
    cases underKey e.1 (OptionValue.ofTree e.2) with
    | ok value => exact ih (overrides.insert e.1 value) hkeys hread
    | error bad => rfl

/-- The entry of a table that has no other, if it is a whole number. -/
def soleWhole? : Tree Float → Option (String × Int)
  | .table [(name, .whole n)] => some (name, n)
  | _ => none

theorem soleWhole?_eq_some {tree : Tree Float} {name : String} {n : Int} (h : soleWhole? tree = some (name, n)) :
    tree = .table [(name, .whole n)] := by
  unfold soleWhole? at h
  split at h <;> cases h
  rfl

/-- **Assignments and objects say the same.** The entries of an object may be written as assignments, in their order:
if no key holds `=` or has a blank at an end, and JSON reads back every value as it was written, then the assignments
make the same overrides as the object or fail with the same error. Any assignment that fails leaves overrides as they
were, and one that succeeds changes the entry of its key only, which stands before the first `=`. -/
theorem assignAll_eq_ofEntries :
    (∀ object : NameMap (Tree Float),
      (∀ name ∈ object.names, '=' ∉ name.toList ∧ Unpadded name.toList) →
      (∀ e ∈ object.entries, Json.readValue? (Json.compact e.2) = some e.2) →
        assignAll NameMap.empty (object.entries.map assignment) = ofEntries object.entries
        ∧ answerOf ((forM (object.entries.map assignment) assignHere).run NameMap.empty) = ofEntries object.entries)
    ∧ ∀ (overrides : Overrides Float) (raw : String),
        match (assignHere raw).run overrides with
        | .error bad after => overrides.assign raw = .error bad ∧ after = overrides
        | .ok () after => overrides.assign raw = .ok after ∧ ∃ key value, Assigns raw key value
            ∧ ∀ name, after.find? name = if key = name then some value else overrides.find? name := by
  constructor
  · intro object hkeys hread
    have hentries : ∀ e ∈ object.entries, '=' ∉ e.1.toList ∧ trimmed e.1 = e.1 := fun e he => by
      obtain ⟨hmark, hends⟩ := hkeys e.1 (List.mem_map_of_mem he)
      exact ⟨hmark, trimmed_of_unpadded hends⟩
    have hall := assignAll_map_assignment NameMap.empty hentries hread
    exact ⟨hall, (assignAll_eq_answerOf _ _).symm.trans hall⟩
  · intro overrides raw
    rw [run_assignHere]
    cases h : overrides.assign raw with
    | error bad => exact ⟨rfl, rfl⟩
    | ok after =>
      obtain ⟨key, value, hassigns, rfl⟩ := assigns_of_assign h
      exact ⟨rfl, key, value, hassigns, fun name => NameMap.find?_insert overrides key name value⟩

/-- Texts that look like numbers or assignments are still read as the texts that they are. -/
theorem assignAll_eq_ofEntries_texts :
    let object : NameMap (Tree Float) := NameMap.ofList
      [("name", .text " a = 1 "), ("namespace", .absent), ("num_cpus", .text "2"),
        ("resources", .table [("TPU", .whole 2)])]
    assignAll NameMap.empty
        ["name=\" a = 1 \"", "namespace=null", "num_cpus=\"2\"", "resources=\x7b\"TPU\":2\x7d"]
      = ofEntries object.entries
    ∧ ∃ overrides, ofEntries object.entries = .ok overrides ∧ overrides.find? "num_cpus" = some (.text "2") := by
  intro object
  have hkeys : ∀ name ∈ object.names, '=' ∉ name.toList ∧ NoBlank name.toList := by decide +kernel
  -- equality of trees is not evaluated, so what is read is taken apart
  have htext : ∀ s ∈ [" a = 1 ", "2"],
      Json.readValue? (Json.compact (.text s : Tree Float)) = some (.text s : Tree Float) := by
    intro s hs
    have hsame : (Json.readValue? (Q := Float) (Json.compact (.text s : Tree Float))).bind Tree.text? = some s := by
      revert s
      decide +kernel
    obtain ⟨tree, htree, hs⟩ := Option.bind_eq_some_iff.1 hsame
    cases tree <;> cases hs
    exact htree
  have htable : Json.readValue? (Json.compact (.table [("TPU", .whole 2)] : Tree Float))
      = some (.table [("TPU", .whole 2)] : Tree Float) := by
    have hsame : (Json.readValue? (Json.compact (.table [("TPU", .whole 2)] : Tree Float))).bind soleWhole?
        = some ("TPU", 2) := by
      decide +kernel
    obtain ⟨tree, htree, hsole⟩ := Option.bind_eq_some_iff.1 hsame
    rw [htree, soleWhole?_eq_some hsole]
  have hread : ∀ e ∈ object.entries, Json.readValue? (Json.compact e.2) = some e.2 := by
    have hentries : object.entries = [("name", .text " a = 1 "), ("namespace", .absent), ("num_cpus", .text "2"),
        ("resources", .table [("TPU", .whole 2)])] := by rfl
    simp only [hentries, List.forall_mem_cons]
    exact ⟨htext _ (by decide), by rfl, htext _ (by decide), htable, fun e he => absurd he List.not_mem_nil⟩
  have htexts : object.entries.map assignment
      = ["name=\" a = 1 \"", "namespace=null", "num_cpus=\"2\"", "resources=\x7b\"TPU\":2\x7d"] := by decide +kernel
  have hboth := assignAll_eq_ofEntries.1 object
    (fun name hname => ⟨(hkeys name hname).1, (hkeys name hname).2.unpadded⟩) hread
  rw [htexts] at hboth
  exact ⟨hboth.1, _, rfl, by rfl⟩

end ActorPlacement.Overrides
