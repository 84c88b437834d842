import ActorPlacement.Tree.Basic

/-!
# Reading typed values from trees

A record is read from a table by the names of its fields, or from a list by their places. Names that
are no fields are passed over. `Record.required?`, `Record.optional?` and `Record.defaulted?` say what
becomes of a field that is missing: only a defaulted one may be missing from a list.
-/

namespace ActorPlacement

/-- Whether items that follow the last field of a record in a list are passed over. -/
inductive SpareItems where
  | passedOver
  | refused
  deriving DecidableEq, Repr

namespace Tree

variable {Q α : Type}

/-- A text. -/
def text? : Tree Q → Option String
  | text s => some s
  | _ => none

/-- A truth value. -/
def flag? : Tree Q → Option Bool
  | flag b => some b
  | _ => none

/-- A quantity; a whole number counts as one. -/
def quantity? [Quantity Q] : Tree Q → Option Q
  | real x => some x
  | whole n => some (Quantity.ofInt n)
  | _ => none

/-- A whole number of 32 bits. -/
def word32? : Tree Q → Option UInt32
  | whole n => if 0 ≤ n ∧ n < UInt32.size then some (UInt32.ofNat n.toNat) else none
  | _ => none

/-- A list of values. -/
def list? (read : Tree Q → Option α) : Tree Q → Option (List α)
  | list items => items.mapM read
  | _ => none

/-- A map; of two values under one name the later counts. -/
def map? (read : Tree Q → Option α) : Tree Q → Option (NameMap α)
  | table entries =>
    (entries.mapM fun e => (read e.2).map fun value => (e.1, value)).map NameMap.ofList
  | _ => none

end Tree

/-- What a tree has for the fields of a record, in the order of the fields. -/
structure Record (Q : Type) where
  slots : List (Option (Tree Q))
  /-- Whether the fields were told by their places. -/
  inOrder : Bool

namespace Record

variable {Q α : Type}

/-- The value of one field in a table. A field may be named only once. -/
def slot? (entries : List (String × Tree Q)) (field : String) : Option (Option (Tree Q)) :=
  match entries.filter fun e => e.1 == field with
  | [] => some none
  | [e] => some (some e.2)
  | _ => none

/-- Read the fields of a record. A date-time has none of them. -/
def ofTree? (spare : SpareItems) (fields : List String) : Tree Q → Option (Record Q)
  | .table entries => (fields.mapM (slot? entries)).map fun slots => { slots, inOrder := false }
  | .list items =>
    if spare = .refused ∧ fields.length < items.length then none
    else
      some
        { slots := (items.take fields.length).map some
            ++ List.replicate (fields.length - items.length) none
          inOrder := true }
  | .stamp => some { slots := fields.map fun _ => none, inOrder := false }
  | _ => none

/-- What the tree has for the field in some place. -/
def at? (r : Record Q) (place : Nat) : Option (Tree Q) := (r.slots[place]?).join

/-- A field that has to be there. -/
def required? (r : Record Q) (place : Nat) (read : Tree Q → Option α) : Option α :=
  (r.at? place).bind read

/-- A field that may be unset. -/
def optional? (r : Record Q) (place : Nat) (read : Tree Q → Option α) : Option (Option α) :=
  match r.at? place with
  | none => if r.inOrder then none else some none
  | some .absent => some none
  | some tree => (read tree).map some

/-- A field with a value of its own when it is missing. -/
def defaulted? (r : Record Q) (place : Nat) (value : α) (read : Tree Q → Option α) : Option α :=
  match r.at? place with
  | none => some value
  | some tree => read tree

end Record

end ActorPlacement
