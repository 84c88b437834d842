import ActorPlacement.NameMap.Basic
import ActorPlacement.Quantity.Basic

/-!
# What a written document stands for

JSON and TOML documents are both read into a `Tree`. A tree read from a text keeps the entries of
a table in the order in which they were written, repeated names included. `Tree.settled?` brings
it to the form in which it is a value: every leaf has been understood, and the names in a table
are ascending, the last of equal names counting.
-/

namespace ActorPlacement

/-- A document as a tree of values. -/
inductive Tree (Q : Type) where
  | absent
  | flag (value : Bool)
  | whole (value : Int)
  | real (value : Q)
  | text (value : String)
  /-- A date or a time of day; only its presence matters. -/
  | stamp
  /-- A leaf that is well formed but stands for nothing a program can hold: a number out of range
  or a text with half of a surrogate pair. -/
  | unread
  | list (items : List (Tree Q))
  | table (entries : List (String × Tree Q))

namespace Tree

variable {Q : Type}

mutual

/-- How many lists and tables lie inside one another. -/
def depth : Tree Q → Nat
  | list items => depthOfItems items + 1
  | table entries => depthOfEntries entries + 1
  | _ => 0

/-- The greatest depth among items. -/
def depthOfItems : List (Tree Q) → Nat
  | [] => 0
  | item :: rest => max (depth item) (depthOfItems rest)

/-- The greatest depth among the values of entries. -/
def depthOfEntries : List (String × Tree Q) → Nat
  | [] => 0
  | (_, value) :: rest => max (depth value) (depthOfEntries rest)

end

mutual

/-- The tree with ascending names in every table, unless a leaf was not understood. -/
def settled? : Tree Q → Option (Tree Q)
  | absent => some absent
  | flag value => some (flag value)
  | whole value => some (whole value)
  | real value => some (real value)
  | text value => some (text value)
  | stamp => some stamp
  | unread => none
  | list items => (settledItems? items).map list
  | table entries => (settledEntries? entries).map fun entries => table (NameMap.ofList entries).entries

/-- Settle every item. -/
def settledItems? : List (Tree Q) → Option (List (Tree Q))
  | [] => some []
  | item :: rest => (settled? item).bind fun item => (settledItems? rest).map (item :: ·)

/-- Settle the value of every entry. -/
def settledEntries? : List (String × Tree Q) → Option (List (String × Tree Q))
  | [] => some []
  | (name, value) :: rest =>
    (settled? value).bind fun value => (settledEntries? rest).map ((name, value) :: ·)

end

end Tree

end ActorPlacement
