import ActorPlacement.Json.Text
import ActorPlacement.Tree.Basic

/-!
# Writing JSON

`Json.compact` writes a tree without blanks, `Json.pretty` with one item or entry a line and two
spaces a level. A leaf that JSON has no form for is written as `null`.
-/

namespace ActorPlacement.Json

variable {Q : Type} [WrittenQuantity Q]

mutual

/-- The tree without blanks. -/
def compact : Tree Q → String
  | .absent => "null"
  | .flag value => if value then "true" else "false"
  | .whole value => toString value
  | .real value => WrittenQuantity.json value
  | .text value => quoted value
  | .stamp => "null"
  | .unread => "null"
  | .list items => "[" ++ compactItems items ++ "]"
  | .table entries => "\x7b" ++ compactEntries entries ++ "\x7d"

/-- Items with commas between them. -/
def compactItems : List (Tree Q) → String
  | [] => ""
  | [item] => compact item
  | item :: rest => compact item ++ "," ++ compactItems rest

/-- Entries with commas between them. -/
def compactEntries : List (String × Tree Q) → String
  | [] => ""
  | [(name, value)] => quoted name ++ ":" ++ compact value
  | (name, value) :: rest => quoted name ++ ":" ++ compact value ++ "," ++ compactEntries rest

end

/-- A line break and the indentation of a level. -/
def newLine (level : Nat) : String := String.ofList ('\n' :: List.replicate (2 * level) ' ')

mutual

/-- The tree over several lines, at some level of indentation. -/
def prettyAt (level : Nat) : Tree Q → String
  | .list [] => "[]"
  | .list items => "[" ++ prettyItems (level + 1) items ++ newLine level ++ "]"
  | .table [] => "\x7b\x7d"
  | .table entries => "\x7b" ++ prettyEntries (level + 1) entries ++ newLine level ++ "\x7d"
  | leaf => compact leaf

/-- Items, each on lines of its own. -/
def prettyItems (level : Nat) : List (Tree Q) → String
  | [] => ""
  | [item] => newLine level ++ prettyAt level item
  | item :: rest => newLine level ++ prettyAt level item ++ "," ++ prettyItems level rest

/-- Entries, each on lines of its own. -/
def prettyEntries (level : Nat) : List (String × Tree Q) → String
  | [] => ""
  | [(name, value)] => newLine level ++ quoted name ++ ": " ++ prettyAt level value
  | (name, value) :: rest =>
    newLine level ++ quoted name ++ ": " ++ prettyAt level value ++ "," ++ prettyEntries level rest

end

/-- The tree over several lines. -/
def pretty (tree : Tree Q) : String := prettyAt 0 tree

end ActorPlacement.Json
