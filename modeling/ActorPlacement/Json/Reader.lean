import ActorPlacement.Json.Number
import ActorPlacement.Json.Text

/-!
# Reading JSON

`Json.readTree?` accepts every well-formed document. `Json.readValue?` also asks that every leaf
stands for something and that lists and tables lie at most `depthLimit` deep, and brings the names
of every table into order.
-/

namespace ActorPlacement.Json

variable {Q : Type} [WrittenQuantity Q]

/-- Drop the blanks that JSON allows between its parts. -/
def skipBlanks (cs : List Char) : List Char :=
  cs.dropWhile fun c => c == ' ' || c == '\n' || c == '\t' || c == '\r'

/-- The table of some entries, if every name is a text. -/
def tableOf (entries : List (Option String × Tree Q)) : Tree Q :=
  match entries.mapM fun e => e.1.map fun name => (name, e.2) with
  | some entries => .table entries
  | none => .unread

/-- The leaf that a quoted text makes. -/
def leafOfText (cs : List (Option Char)) : Tree Q :=
  match textOf? cs with
  | some s => .text s
  | none => .unread

mutual

/-- Read a value and answer what follows it. The fuel bounds how many values, items
and entries are opened. -/
def readAt? : Nat → List Char → Option (Tree Q × List Char)
  | 0, _ => none
  | _ + 1, 'n' :: 'u' :: 'l' :: 'l' :: rest => some (.absent, rest)
  | _ + 1, 't' :: 'r' :: 'u' :: 'e' :: rest => some (.flag true, rest)
  | _ + 1, 'f' :: 'a' :: 'l' :: 's' :: 'e' :: rest => some (.flag false, rest)
  | fuel + 1, '"' :: rest => (readQuoted? fuel rest).map fun (cs, rest) => (leafOfText cs, rest)
  | fuel + 1, '[' :: rest =>
    match skipBlanks rest with
    | ']' :: rest => some (.list [], rest)
    | rest => (readItems? fuel rest).map fun (items, rest) => (.list items, rest)
  | fuel + 1, '\x7b' :: rest =>
    match skipBlanks rest with
    | '\x7d' :: rest => some (.table [], rest)
    | rest => (readEntries? fuel rest).map fun (entries, rest) => (tableOf entries, rest)
  | _ + 1, rest => readNumber? rest

/-- Read items up to the closing bracket, at least one. -/
def readItems? : Nat → List Char → Option (List (Tree Q) × List Char)
  | 0, _ => none
  | fuel + 1, cs =>
    (readAt? fuel (skipBlanks cs)).bind fun (item, rest) =>
      match skipBlanks rest with
      | ']' :: rest => some ([item], rest)
      | ',' :: rest => (readItems? fuel rest).map fun (items, rest) => (item :: items, rest)
      | _ => none

/-- Read entries up to the closing brace, at least one; `none` stands for a name that is no text. -/
def readEntries? : Nat → List Char → Option (List (Option String × Tree Q) × List Char)
  | 0, _ => none
  | fuel + 1, cs =>
    match skipBlanks cs with
    | '"' :: rest =>
      (readQuoted? fuel rest).bind fun (name, rest) =>
        match skipBlanks rest with
        | ':' :: rest =>
          (readAt? fuel (skipBlanks rest)).bind fun (value, rest) =>
            match skipBlanks rest with
            | '\x7d' :: rest => some ([(textOf? name, value)], rest)
            | ',' :: rest =>
              (readEntries? fuel rest).map fun (entries, rest) =>
                ((textOf? name, value) :: entries, rest)
            | _ => none
        | _ => none
    | _ => none

end

/-- Read a whole document. -/
def readTree? (s : String) : Option (Tree Q) :=
  let cs := s.toList
  (readAt? (2 * cs.length + 2) (skipBlanks cs)).bind fun (tree, rest) =>
    if (skipBlanks rest).isEmpty then some tree else none

/-- How deep lists and tables may lie in a value. -/
def depthLimit : Nat := 127

/-- Read a document that is to be kept as a value. -/
def readValue? (s : String) : Option (Tree Q) :=
  (readTree? s).bind fun tree => if tree.depth ≤ depthLimit then tree.settled? else none

end ActorPlacement.Json
