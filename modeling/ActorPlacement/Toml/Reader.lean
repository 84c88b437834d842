import ActorPlacement.Toml.Draft
import ActorPlacement.Toml.Number
import ActorPlacement.Toml.Text

/-!
# Reading TOML

A document is read line by line; each line is a pair, a header or nothing. `Toml.readTree?` then lets
the lines build the tables in their order.
-/

namespace ActorPlacement.Toml

/-- Drop a comment, if one leads the text. -/
def skipComment : List Char → List Char
  | '#' :: rest => rest.dropWhile isPlain
  | rest => rest

/-- Drop blanks, comments and line breaks between the items of a list. A comment ends with its line. -/
def skipBetween : Nat → List Char → List Char
  | 0, cs => cs
  | fuel + 1, cs =>
    let rest := skipSpaces cs
    match lineBreak? (skipComment rest) with
    | some rest => skipBetween fuel rest
    | none => rest

/-- The key and the path before it, of the parts of a dotted key. -/
def splitPath? (keys : List String) : Option (List String × String) :=
  keys.getLast?.map fun key => (keys.dropLast, key)

/-- The table that the pairs in braces make. -/
def inlineTable? (pairs : List (List String × Tree Float)) : Option (Tree Float) :=
  (pairs.foldlM (fun (entries : Draft.Entries Float) (pair : List String × Tree Float) =>
    (splitPath? pair.1).bind fun (path, key) => Draft.addPair? entries path key pair.2) []).map
      fun entries => (Draft.table .header entries).toTree

mutual

/-- Read a value inside `level` lists and tables. -/
def readValue? : Nat → Nat → List Char → Option (Tree Float × List Char)
  | 0, _, _ => none
  | fuel + 1, level, cs =>
    match cs with
    | '"' :: _ => (readText? cs).map fun (s, rest) => (.text s, rest)
    | '\'' :: _ => (readText? cs).map fun (s, rest) => (.text s, rest)
    | '[' :: rest =>
      if level < depthLimit then
        match skipBetween (rest.length + 1) rest with
        | ']' :: rest => some (.list [], rest)
        | rest => (readItems? fuel (level + 1) rest).map fun (items, rest) => (.list items, rest)
      else none
    | '\x7b' :: rest =>
      if level < depthLimit then
        match skipSpaces rest with
        | '\x7d' :: rest => some (.table [], rest)
        | rest =>
          (readPairs? fuel (level + 1) rest).bind fun (pairs, rest) =>
            (inlineTable? pairs).map fun tree => (tree, rest)
      else none
    | 't' :: 'r' :: 'u' :: 'e' :: rest => some (.flag true, rest)
    | 'f' :: 'a' :: 'l' :: 's' :: 'e' :: rest => some (.flag false, rest)
    | cs => readStampOrNumber? cs

/-- Read items up to the closing bracket, at least one; a comma may follow the last. -/
def readItems? : Nat → Nat → List Char → Option (List (Tree Float) × List Char)
  | 0, _, _ => none
  | fuel + 1, level, cs =>
    (readValue? fuel level cs).bind fun (item, rest) =>
      match skipBetween (rest.length + 1) rest with
      | ']' :: rest => some ([item], rest)
      | ',' :: rest =>
        match skipBetween (rest.length + 1) rest with
        | ']' :: rest => some ([item], rest)
        | rest => (readItems? fuel level rest).map fun (items, rest) => (item :: items, rest)
      | _ => none

/-- Read the pairs of an inline table up to its closing brace, at least one and all on one line. -/
def readPairs? : Nat → Nat → List Char → Option (List (List String × Tree Float) × List Char)
  | 0, _, _ => none
  | fuel + 1, level, cs =>
    (readKey? cs).bind fun (keys, rest) =>
      (expect? '=' rest).bind fun rest =>
        (readValue? fuel level (skipSpaces rest)).bind fun (tree, rest) =>
          match skipSpaces rest with
          | '\x7d' :: rest => some ([(keys, tree)], rest)
          | ',' :: rest => (readPairs? fuel level rest).map fun (pairs, rest) => ((keys, tree) :: pairs, rest)
          | _ => none

end

/-- A line of a document. -/
inductive Line where
  | blank
  | pair (keys : List String) (tree : Tree Float)
  | table (keys : List String)
  | item (keys : List String)

/-- End a line: blanks, a comment, and a line break or the end of the text. -/
def endLine? (cs : List Char) : Option (List Char) :=
  let rest := skipComment (skipSpaces cs)
  if rest.isEmpty then some [] else lineBreak? rest

/-- Read a header after its opening bracket or brackets. -/
def readHeader? (close : List Char) (cs : List Char) : Option (List String × List Char) :=
  (readKey? cs).bind fun (keys, rest) =>
    if close.isPrefixOf rest then some (keys, rest.drop close.length) else none

/-- Read one line. -/
def readLine? (cs : List Char) : Option (Line × List Char) :=
  match skipSpaces cs with
  | '[' :: '[' :: rest =>
    (readHeader? [']', ']'] rest).bind fun (keys, rest) => (endLine? rest).map fun rest => (.item keys, rest)
  | '[' :: rest =>
    (readHeader? [']'] rest).bind fun (keys, rest) => (endLine? rest).map fun rest => (.table keys, rest)
  | rest =>
    match endLine? rest with
    | some rest => some (.blank, rest)
    | none =>
      (readKey? rest).bind fun (keys, rest) =>
        (expect? '=' rest).bind fun rest =>
          (readValue? (2 * rest.length + 2) 0 (skipSpaces rest)).bind fun (tree, rest) =>
            (endLine? rest).map fun rest => (.pair keys tree, rest)

/-- Read all lines. -/
def readLinesOf? : Nat → List Char → Option (List Line)
  | _, [] => some []
  | 0, _ => none
  | fuel + 1, cs => (readLine? cs).bind fun (line, rest) => (readLinesOf? fuel rest).map (line :: ·)

/-- A document under construction: its tables, and where the pairs of the current section go. -/
structure Page where
  entries : Draft.Entries Float
  section_ : List String

/-- Let one line build its part. -/
def Page.add? (page : Page) : Line → Option Page
  | .blank => some page
  | .pair keys tree => do
    let (path, key) ← splitPath? keys
    let entries ← Draft.within? .implied (fun _ inner => Draft.addPair? inner path key tree) page.section_
      .header page.entries
    return { page with entries }
  | .table keys => do
    let (path, key) ← splitPath? keys
    let entries ← Draft.startTable? page.entries path key
    return { entries, section_ := keys }
  | .item keys => do
    let (path, key) ← splitPath? keys
    let entries ← Draft.startItem? page.entries path key
    return { entries, section_ := keys }

/-- A text without the mark of its byte order. -/
def withoutMark : List Char → List Char
  | c :: rest => if c.toNat = 0xFEFF then rest else c :: rest
  | [] => []

/-- Read a whole document. -/
def readTree? (s : String) : Option (Tree Float) := do
  let cs := withoutMark s.toList
  let lines ← readLinesOf? cs.length cs
  let page ← lines.foldlM Page.add? { entries := [], section_ := [] }
  return (Draft.table .header page.entries).toTree

end ActorPlacement.Toml
