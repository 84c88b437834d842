import ActorPlacement.Decimal.Style
import ActorPlacement.Text.Affix
import ActorPlacement.Tree.Basic

/-!
# Writing TOML

`Toml.write` gives every table a section of its own. A table's plain entries stand under its header;
the header is left out when there are none, unless the table is empty. A list of tables becomes one
section for each of them. An entry without a value is not written.
-/

namespace ActorPlacement.Toml

/-- What the characters of a text ask of its written form. -/
structure TextTraits where
  /-- The longest run of double quotes. -/
  doubleRun : Nat
  /-- The longest run of single quotes. -/
  singleRun : Nat
  backslash : Bool
  lineFeed : Bool
  /-- A control character other than a tab or a line feed. -/
  control : Bool

/-- The length of the longest run of `mark`, of which one of length `current` precedes the text. -/
def longestRun (mark : Char) : Nat → List Char → Nat
  | current, [] => current
  | current, c :: rest =>
    if c = mark then longestRun mark (current + 1) rest else max current (longestRun mark 0 rest)

/-- The traits of a text. -/
def TextTraits.ofText (cs : List Char) : TextTraits where
  doubleRun := longestRun '"' 0 cs
  singleRun := longestRun '\'' 0 cs
  backslash := cs.contains '\\'
  lineFeed := cs.contains '\n'
  control := cs.any fun c => (c.toNat < 0x20 && c != '\t' && c != '\n') || c.toNat == 0x7F

/-- Four upper-case hexadecimal digits. -/
def hexUnit (n : Nat) : List Char :=
  let digits := (Nat.toDigits 16 n).map Char.toUpper
  List.replicate (4 - digits.length) '0' ++ digits

/-- A character other than a double quote, as it stands among escapes. A line feed stays when `lines` is
set. -/
def escapedChar (lines : Bool) (c : Char) : List Char :=
  if c = '\x08' then ['\\', 'b']
  else if c = '\t' then ['\\', 't']
  else if c = '\n' then if lines then ['\n'] else ['\\', 'n']
  else if c = '\x0c' then ['\\', 'f']
  else if c = '\r' then ['\\', 'r']
  else if c = '\\' then ['\\', '\\']
  else if c.toNat < 0x20 ∨ c.toNat = 0x7F then ['\\', 'u'] ++ hexUnit c.toNat
  else [c]

/-- Characters with escapes. Up to `quotes` double quotes in a row are not escaped. -/
def escapeAll (quotes : Nat) (lines : Bool) : Nat → List Char → List Char
  | _, [] => []
  | run, c :: rest =>
    if c = '"' then
      if run < quotes then '"' :: escapeAll quotes lines (run + 1) rest
      else '\\' :: '"' :: escapeAll quotes lines 0 rest
    else escapedChar lines c ++ escapeAll quotes lines 0 rest

/-- A text in double quotes. -/
def basicText (cs : List Char) : List Char := '"' :: escapeAll 0 false 0 cs ++ ['"']

/-- A text in single quotes. -/
def literalText (cs : List Char) : List Char := '\'' :: cs ++ ['\'']

/-- Three quotes, a line break if the text has one, the text, and three quotes. -/
def linesText (quote : Char) (t : TextTraits) (body : List Char) : List Char :=
  List.replicate 3 quote ++ (if t.lineFeed then ['\n'] else []) ++ body ++ List.replicate 3 quote

/-- A text as a value: on one line and without escapes if possible, else over several lines without
escapes, else with escapes. -/
def writeText (s : String) : String :=
  let cs := s.toList
  let t := TextTraits.ofText cs
  let basicLines := linesText '"' t (escapeAll 2 true 0 cs)
  String.ofList <|
    if !t.control && !t.backslash && t.doubleRun == 0 && !t.lineFeed then basicText cs
    else if !t.control && t.singleRun == 0 && !t.lineFeed then literalText cs
    else if !t.control && !t.backslash && t.doubleRun ≤ 2 then basicLines
    else if !t.control && t.singleRun ≤ 2 then linesText '\'' t cs
    else if t.lineFeed then basicLines
    else basicText cs

/-- A key: bare if its characters allow it, else a text on one line. -/
def writeKey (s : String) : String :=
  let cs := s.toList
  let t := TextTraits.ofText cs
  let control := t.control || t.lineFeed
  let isBare (c : Char) : Bool := c.isAlphanum || c == '-' || c == '_'
  if !cs.isEmpty && cs.all isBare then s
  else String.ofList <|
    if !control && !t.backslash && t.doubleRun == 0 then basicText cs
    else if !control && t.singleRun == 0 then literalText cs
    else basicText cs

/-- What an entry of a table becomes. -/
inductive Part (Q : Type) where
  | nothing
  | plain (text : String)
  | section_ (entries : List (String × Tree Q))
  | sections (items : List (List (String × Tree Q)))

/-- The entries of every tree, if each is a table. -/
def tablesOf? {Q : Type} : List (Tree Q) → Option (List (List (String × Tree Q)))
  | [] => some []
  | .table entries :: rest => (tablesOf? rest).map (entries :: ·)
  | _ => none

/-- The text of a leaf or of a list of leaves. -/
def writeValue : Tree Float → String
  | .flag value => if value then "true" else "false"
  | .whole value => toString value
  | .real value => FloatStyle.toml.write value
  | .text value => writeText value
  | .list [] => "[]"
  | _ => ""

/-- What a tree becomes as an entry of a table. -/
def Part.ofTree : Tree Float → Part Float
  | .absent => .nothing
  | .table entries => .section_ entries
  | .list [] => .plain (writeValue (.list []))
  | .list items =>
    match tablesOf? items with
    | some tables => .sections tables
    | none => .nothing
  | leaf => .plain (writeValue leaf)

/-- What is written of a document so far, and whether that is nothing yet. -/
structure Written where
  text : String
  first : Bool

/-- Write a header over a section, after a blank line unless it is the first. -/
def Written.header (w : Written) (opening closing : String) (path : List String) : Written :=
  { text := w.text ++ (if w.first then "" else "\n") ++ opening
      ++ joinedWith "." (path.map writeKey) ++ closing ++ "\n"
    first := false }

/-- Write a pair. -/
def Written.pair (w : Written) (key value : String) : Written :=
  { text := w.text ++ writeKey key ++ " = " ++ value ++ "\n", first := false }

/-- The pairs that stand under a table's header. -/
def plainPairs (entries : List (String × Tree Float)) : List (String × String) :=
  entries.filterMap fun e =>
    match Part.ofTree e.2 with
    | .plain text => some (e.1, text)
    | _ => none

/-- Whether a table has entries that are written. -/
def hasParts (entries : List (String × Tree Float)) : Bool :=
  entries.any fun e =>
    match Part.ofTree e.2 with
    | .nothing => false
    | _ => true

/-- What marks the section of a table: nothing, one bracket or two. -/
inductive Heading where
  | none
  | table
  | item
  deriving DecidableEq

/-- Write a table and the sections below it. The fuel bounds the depth of the tree. -/
def writeTable : Nat → Heading → List String → List (String × Tree Float) → Written → Written
  | 0, _, _, _, w => w
  | fuel + 1, heading, path, entries, w =>
    let pairs := plainPairs entries
    let w :=
      match heading with
      | .none => w
      | .table => if pairs.isEmpty && hasParts entries then w else w.header "[" "]" path
      | .item => w.header "[[" "]]" path
    let w := pairs.foldl (fun w p => w.pair p.1 p.2) w
    entries.foldl (fun w e =>
      match Part.ofTree e.2 with
      | .nothing => w
      | .plain _ => w
      | .section_ inner => writeTable fuel .table (path ++ [e.1]) inner w
      | .sections items => items.foldl (fun w inner => writeTable fuel .item (path ++ [e.1]) inner w) w) w

/-- Write a document. -/
def write (tree : Tree Float) : String :=
  match tree with
  | .table entries => (writeTable (tree.depth + 1) .none [] entries ⟨"", true⟩).text
  | leaf => writeValue leaf

end ActorPlacement.Toml
