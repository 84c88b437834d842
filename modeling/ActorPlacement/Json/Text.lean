/-!
# JSON texts

A text is quoted, with escapes for quotes, backslashes and control characters. A character beyond
the basic plane may be escaped as a surrogate pair; half a pair is well formed but is no text.
-/

namespace ActorPlacement.Json

/-- The value of a hexadecimal digit. -/
def hexValue? (c : Char) : Option Nat :=
  if c.isDigit then some (c.toNat - '0'.toNat)
  else if 'a' ≤ c ∧ c ≤ 'f' then some (c.toNat - 'a'.toNat + 10)
  else if 'A' ≤ c ∧ c ≤ 'F' then some (c.toNat - 'A'.toNat + 10)
  else none

/-- Four hexadecimal digits and what follows them. -/
def readUnit? : List Char → Option (Nat × List Char)
  | a :: b :: c :: d :: rest =>
    match hexValue? a, hexValue? b, hexValue? c, hexValue? d with
    | some a, some b, some c, some d => some (((a * 16 + b) * 16 + c) * 16 + d, rest)
    | _, _, _, _ => none
  | _ => none

/-- Whether a code unit opens a surrogate pair. -/
def isHighSurrogate (n : Nat) : Bool := 0xD800 ≤ n && n < 0xDC00

/-- Whether a code unit closes a surrogate pair. -/
def isLowSurrogate (n : Nat) : Bool := 0xDC00 ≤ n && n < 0xE000

/-- The character of a surrogate pair. -/
def pairValue (high low : Nat) : Char :=
  Char.ofNat (0x10000 + (high - 0xD800) * 0x400 + (low - 0xDC00))

/-- The character after a backslash, unless it is `u`. -/
def simpleEscape? : Char → Option Char
  | '"' => some '"'
  | '\\' => some '\\'
  | '/' => some '/'
  | 'b' => some '\x08'
  | 'f' => some '\x0c'
  | 'n' => some '\n'
  | 'r' => some '\r'
  | 't' => some '\t'
  | _ => none

/-- Read up to the closing quote: the characters, `none` among them for half a surrogate pair, and
what follows the quote. -/
def readQuoted? : Nat → List Char → Option (List (Option Char) × List Char)
  | 0, _ => none
  | _ + 1, [] => none
  | _ + 1, '"' :: rest => some ([], rest)
  | fuel + 1, '\\' :: 'u' :: rest =>
    (readUnit? rest).bind fun (unit, rest) =>
      if isHighSurrogate unit then
        match rest with
        | '\\' :: 'u' :: tail =>
          (readUnit? tail).bind fun (low, tail) =>
            if isLowSurrogate low then
              (readQuoted? fuel tail).map fun (cs, rest) => (some (pairValue unit low) :: cs, rest)
            else (readQuoted? fuel rest).map fun (cs, rest) => (none :: cs, rest)
        | _ => (readQuoted? fuel rest).map fun (cs, rest) => (none :: cs, rest)
      else if isLowSurrogate unit then
        (readQuoted? fuel rest).map fun (cs, rest) => (none :: cs, rest)
      else (readQuoted? fuel rest).map fun (cs, rest) => (some (Char.ofNat unit) :: cs, rest)
  | fuel + 1, '\\' :: c :: rest =>
    (simpleEscape? c).bind fun c =>
      (readQuoted? fuel rest).map fun (cs, rest) => (some c :: cs, rest)
  | fuel + 1, c :: rest =>
    if c.toNat < 0x20 || c == '\\' then none
    else (readQuoted? fuel rest).map fun (cs, rest) => (some c :: cs, rest)

/-- The text of some characters, if each is one. -/
def textOf? (cs : List (Option Char)) : Option String := (cs.mapM id).map String.ofList

/-- Two lower-case hexadecimal digits. -/
def hexPair (n : Nat) : List Char := [Nat.digitChar (n / 16), Nat.digitChar (n % 16)]

/-- A character as it stands in a written text. -/
def escaped (c : Char) : List Char :=
  if c = '"' then ['\\', '"']
  else if c = '\\' then ['\\', '\\']
  else if c = '\x08' then ['\\', 'b']
  else if c = '\x0c' then ['\\', 'f']
  else if c = '\n' then ['\\', 'n']
  else if c = '\r' then ['\\', 'r']
  else if c = '\t' then ['\\', 't']
  else if c.toNat < 0x20 then ['\\', 'u', '0', '0'] ++ hexPair c.toNat
  else [c]

/-- A text in quotes. -/
def quoted (s : String) : String :=
  String.ofList ('"' :: s.toList.flatMap escaped ++ ['"'])

end ActorPlacement.Json
