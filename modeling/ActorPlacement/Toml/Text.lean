import ActorPlacement.Json.Text

/-!
# TOML texts and keys

Four quoted forms, with and without escapes and on one line or several, and bare keys.
-/

namespace ActorPlacement.Toml

/-- Blanks within a line. -/
def isSpace (c : Char) : Bool := c == ' ' || c == '\t'

/-- Drop blanks within a line. -/
def skipSpaces (cs : List Char) : List Char := cs.dropWhile isSpace

/-- A line break, if one leads the text, and what follows it. -/
def lineBreak? : List Char → Option (List Char)
  | '\n' :: rest => some rest
  | '\r' :: '\n' :: rest => some rest
  | _ => none

/-- Characters that may stand in comments and, quotes and backslashes apart, in texts: all but control
characters, of which only the tab may. -/
def isPlain (c : Char) : Bool := c == '\t' || (0x20 ≤ c.toNat && c.toNat != 0x7F)

/-- Characters of a bare key. -/
def isBare (c : Char) : Bool := c.isAlphanum || c == '-' || c == '_'

/-- The number of some hexadecimal digits, exactly `count` of them, and what follows. -/
def readHex? : Nat → Nat → List Char → Option (Nat × List Char)
  | 0, n, rest => some (n, rest)
  | _ + 1, _, [] => none
  | count + 1, n, c :: rest => (Json.hexValue? c).bind fun d => readHex? count (16 * n + d) rest

/-- The character of a code point, unless it is a surrogate or beyond the last one. -/
def charOfCode? (n : Nat) : Option Char :=
  if n < 0xD800 ∨ (0xE000 ≤ n ∧ n < 0x110000) then some (Char.ofNat n) else none

/-- The character that an escape stands for, read after its backslash, and what follows. -/
def readEscape? : List Char → Option (Char × List Char)
  | 'u' :: rest => (readHex? 4 0 rest).bind fun (n, rest) => (charOfCode? n).map fun c => (c, rest)
  | 'U' :: rest => (readHex? 8 0 rest).bind fun (n, rest) => (charOfCode? n).map fun c => (c, rest)
  | '/' :: _ => none
  | c :: rest => (Json.simpleEscape? c).map fun c => (c, rest)
  | [] => none

/-- Read a text with escapes up to its closing quote. -/
def readBasic? : Nat → List Char → Option (List Char × List Char)
  | 0, _ => none
  | _ + 1, [] => none
  | fuel + 1, c :: rest =>
    if c = '"' then some ([], rest)
    else if c = '\\' then
      (readEscape? rest).bind fun (c, rest) =>
        (readBasic? fuel rest).map fun (cs, rest) => (c :: cs, rest)
    else if isPlain c then (readBasic? fuel rest).map fun (cs, rest) => (c :: cs, rest)
    else none

/-- Read a text without escapes up to its closing quote. -/
def readLiteral? : List Char → Option (List Char × List Char)
  | [] => none
  | c :: rest =>
    if c = '\'' then some ([], rest)
    else if isPlain c then (readLiteral? rest).map fun (cs, rest) => (c :: cs, rest)
    else none

/-- What a run of quotes in a text of several lines amounts to: fewer than three are part of the text,
three end it, and up to two more before those three are part of it. -/
inductive QuoteRun where
  | inside (quotes : Nat)
  | closing (quotes : Nat)

/-- Judge a run of `count` quotes. -/
def QuoteRun.ofCount (count : Nat) : QuoteRun :=
  if count < 3 then .inside count else .closing (min (count - 3) 2)

/-- Drop the blanks and line breaks after a backslash at the end of a line. -/
def skipContinuation (cs : List Char) : List Char :=
  let rec go : List Char → List Char
    | '\n' :: rest => go rest
    | '\r' :: '\n' :: rest => go rest
    | c :: rest => if isSpace c then go rest else c :: rest
    | [] => []
  go cs

/-- Read a text of several lines up to its closing quotes. A line break counts as a line feed. -/
def readLines? (quote : Char) (escapes : Bool) : Nat → List Char → Option (List Char × List Char)
  | 0, _ => none
  | _ + 1, [] => none
  | fuel + 1, c :: rest =>
    if c = quote then
      let count := (rest.takeWhile (· == quote)).length + 1
      match QuoteRun.ofCount count with
      | .inside quotes =>
        (readLines? quote escapes fuel (rest.drop (quotes - 1))).map fun (cs, rest) =>
          (List.replicate quotes quote ++ cs, rest)
      | .closing quotes => some (List.replicate quotes quote, rest.drop (quotes + 2))
    else if escapes && c == '\\' then
      match lineBreak? (skipSpaces rest) with
      | some rest => readLines? quote escapes fuel (skipContinuation rest)
      | none =>
        (readEscape? rest).bind fun (c, rest) =>
          (readLines? quote escapes fuel rest).map fun (cs, rest) => (c :: cs, rest)
    else
      match lineBreak? (c :: rest) with
      | some rest => (readLines? quote escapes fuel rest).map fun (cs, rest) => ('\n' :: cs, rest)
      | none =>
        if isPlain c then (readLines? quote escapes fuel rest).map fun (cs, rest) => (c :: cs, rest)
        else none

/-- Drop a line break that follows the opening quotes. -/
def skipFirstBreak (cs : List Char) : List Char := (lineBreak? cs).getD cs

/-- Read a text in any of the four forms. -/
def readText? (cs : List Char) : Option (String × List Char) :=
  let read :=
    match cs with
    | '"' :: '"' :: '"' :: rest => readLines? '"' true (cs.length + 1) (skipFirstBreak rest)
    | '"' :: rest => readBasic? (cs.length + 1) rest
    | '\'' :: '\'' :: '\'' :: rest => readLines? '\'' false (cs.length + 1) (skipFirstBreak rest)
    | '\'' :: rest => readLiteral? rest
    | _ => none
  read.map fun (cs, rest) => (String.ofList cs, rest)

/-- Read one key: bare, or quoted on one line. -/
def readSimpleKey? (cs : List Char) : Option (String × List Char) :=
  match cs with
  | '"' :: rest => (readBasic? (cs.length + 1) rest).map fun (cs, rest) => (String.ofList cs, rest)
  | '\'' :: rest => (readLiteral? rest).map fun (cs, rest) => (String.ofList cs, rest)
  | cs =>
    let (key, rest) := cs.span isBare
    if key.isEmpty then none else some (String.ofList key, rest)

/-- How many parts a dotted key may have at most, and how deep lists and tables may lie in a value. -/
def depthLimit : Nat := 79

/-- Read the parts of a dotted key and the blanks around it. -/
def readKeyParts? : Nat → List Char → Option (List String × List Char)
  | 0, _ => none
  | fuel + 1, cs =>
    (readSimpleKey? (skipSpaces cs)).bind fun (key, rest) =>
      match skipSpaces rest with
      | '.' :: rest => (readKeyParts? fuel rest).map fun (keys, rest) => (key :: keys, rest)
      | rest => some ([key], rest)

/-- Read a dotted key. -/
def readKey? (cs : List Char) : Option (List String × List Char) :=
  (readKeyParts? (cs.length + 1) cs).bind fun (keys, rest) =>
    if keys.length ≤ depthLimit then some (keys, rest) else none

end ActorPlacement.Toml
