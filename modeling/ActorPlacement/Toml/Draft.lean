import ActorPlacement.Tree.Basic

/-!
# Tables under construction

A TOML document says its tables in pieces. A `Draft` remembers how each table came about, which
decides what later pieces may still add to it: a table with a header of its own is closed to dotted
keys and to a second header, a table that only a longer header implied may yet get its own, and a
value is closed to everything.
-/

namespace ActorPlacement.Toml

/-- How a table came about. -/
inductive Origin where
  /-- By a header, or as the outermost table. -/
  | header
  /-- As a part of a longer header. -/
  | implied
  /-- By a dotted key. -/
  | dotted
  deriving DecidableEq, Repr

/-- A part of a document under construction. -/
inductive Draft (Q : Type) where
  | value (tree : Tree Q)
  | table (origin : Origin) (entries : List (String × Draft Q))
  /-- An array of tables, each of them a `table`. -/
  | tables (items : List (Draft Q))

namespace Draft

variable {Q : Type}

/-- Entries of a table under construction. -/
abbrev Entries (Q : Type) := List (String × Draft Q)

/-- What is under a name. -/
def find? (entries : Entries Q) (name : String) : Option (Draft Q) :=
  (entries.find? fun e => e.1 == name).map Prod.snd

/-- Put a draft under a name, at the end if the name is new. -/
def put (entries : Entries Q) (name : String) (draft : Draft Q) : Entries Q :=
  if entries.any fun e => e.1 == name then
    entries.map fun e => if e.1 == name then (name, draft) else e
  else entries ++ [(name, draft)]

/-- Change the table at the end of a path. Tables missing on the way are made, with `made` as their
origin. In an array of tables the way leads into the last one. A dotted key leads through no table
that has a header. -/
def within? (made : Origin) (change : Origin → Entries Q → Option (Entries Q)) :
    List String → Origin → Entries Q → Option (Entries Q)
  | [], origin, entries => change origin entries
  | name :: path, _, entries =>
    match find? entries name with
    | none => (within? made change path made []).map fun inner => put entries name (.table made inner)
    | some (.value _) => none
    | some (.table origin inner) =>
      if made = .dotted ∧ origin = .header then none
      else
        (within? made change path origin inner).map fun inner => put entries name (.table origin inner)
    | some (.tables items) =>
      match items.getLast? with
      | some (.table origin inner) =>
        (within? made change path origin inner).map fun inner =>
          put entries name (.tables (items.dropLast ++ [.table origin inner]))
      | _ => none

/-- Add a pair to the table of a section, under a key of one or more parts. A table that a dotted key
reaches must itself have come about by dotted keys, and no key may be there already. -/
def addPair? (entries : Entries Q) (path : List String) (key : String) (tree : Tree Q) :
    Option (Entries Q) :=
  within? .dotted (fun origin inner =>
    if path ≠ [] ∧ origin ≠ .dotted then none
    else
      match find? inner key with
      | some _ => none
      | none => some (inner ++ [(key, .value tree)])) path .header entries

/-- Start the table of a header: a table that was only implied keeps what it has. -/
def startTable? (entries : Entries Q) (path : List String) (key : String) : Option (Entries Q) :=
  within? .implied (fun _ inner =>
    match find? inner key with
    | none => some (put inner key (.table .header []))
    | some (.table .implied kept) => some (put inner key (.table .header kept))
    | _ => none) path .header entries

/-- Start a further table of an array of tables. -/
def startItem? (entries : Entries Q) (path : List String) (key : String) : Option (Entries Q) :=
  within? .implied (fun _ inner =>
    match find? inner key with
    | none => some (put inner key (.tables [.table .header []]))
    | some (.tables items) => some (put inner key (.tables (items ++ [.table .header []])))
    | _ => none) path .header entries

mutual

/-- The finished part. -/
def toTree : Draft Q → Tree Q
  | value tree => tree
  | table _ entries => .table (entriesToTree entries)
  | tables items => .list (itemsToTree items)

/-- The finished entries. -/
def entriesToTree : List (String × Draft Q) → List (String × Tree Q)
  | [] => []
  | (name, draft) :: rest => (name, toTree draft) :: entriesToTree rest

/-- The finished items. -/
def itemsToTree : List (Draft Q) → List (Tree Q)
  | [] => []
  | draft :: rest => toTree draft :: itemsToTree rest

end

end Draft

end ActorPlacement.Toml
