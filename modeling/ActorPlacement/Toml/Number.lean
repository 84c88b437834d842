import ActorPlacement.Json.Text
import ActorPlacement.Quantity.Double
import ActorPlacement.Tree.Basic

/-!
# TOML numbers, dates and times

Whole numbers of 64 bits in four bases, floats, dates and times. Single underscores may part digits.
-/

namespace ActorPlacement.Toml

/-- A digit of some base. -/
def isDigitOf (base : Nat) (c : Char) : Bool :=
  match Json.hexValue? c with
  | some n => n < base
  | none => false

/-- The digits that lead a text, each underscore among them between two digits, and what follows; an
underscore that no digit follows is an error. -/
def spanParted? (base : Nat) : List Char → Option (List Char × List Char)
  | '_' :: c :: rest =>
    if isDigitOf base c then (spanParted? base rest).map fun (ds, rest) => (c :: ds, rest) else none
  | ['_'] => none
  | c :: rest =>
    if isDigitOf base c then (spanParted? base rest).map fun (ds, rest) => (c :: ds, rest)
    else some ([], c :: rest)
  | [] => some ([], [])

/-- At least one digit, underscores only between digits. -/
def readParted? (base : Nat) : List Char → Option (List Char × List Char)
  | c :: rest =>
    if isDigitOf base c then (spanParted? base rest).map fun (ds, rest) => (c :: ds, rest) else none
  | [] => none

/-- A decimal whole part: a zero alone, or digits that do not start with one. -/
def readWhole? : List Char → Option (List Char × List Char)
  | '0' :: rest => some (['0'], rest)
  | cs => readParted? 10 cs

/-- The number of some digits in a base. -/
def valueIn (base : Nat) (digits : List Char) : Nat :=
  digits.foldl (fun n c => base * n + (Json.hexValue? c).getD 0) 0

/-- A whole number that fits a signed word of 64 bits. -/
def wholeLeaf? (negative : Bool) (n : Nat) : Option (Tree Float) :=
  if n < UInt64.size / 2 ∨ (negative ∧ n = UInt64.size / 2) then some (.whole (if negative then -n else n)) else none

/-- A sign and an exponent of a float, read after its mark. -/
def readExponent? (cs : List Char) : Option (Int × List Char) :=
  let (minus, rest) := Decimal.spanSign cs
  (readParted? 10 rest).map fun (ds, rest) =>
    (if minus then -(Decimal.ofDigits ds : Int) else Decimal.ofDigits ds, rest)

/-- A float's leaf: the nearest double, unless it lies above all doubles. -/
def floatLeaf? (d : Decimal) : Option (Tree Float) :=
  let x := d.toFloat
  if x.isFinite || d.negative then some (.real x) else none

/-- Whether an exponent's mark leads the text. -/
def isExponentMark (c : Char) : Bool := c == 'e' || c == 'E'

/-- Read what follows the whole part of a decimal number: it is a float if a fraction or an exponent
follows, else a whole number. -/
def readDecimalTail? (negative : Bool) (whole : List Char) : List Char →
    Option (Tree Float × List Char)
  | '.' :: rest =>
    (readParted? 10 rest).bind fun (fraction, rest) =>
      let digits := Decimal.ofDigits (whole ++ fraction)
      let scale : Int := -(fraction.length : Int)
      match rest with
      | c :: tail =>
        if isExponentMark c then
          (readExponent? tail).bind fun (e, rest) =>
            (floatLeaf? { negative, digits, exponent := scale + e }).map fun leaf => (leaf, rest)
        else (floatLeaf? { negative, digits, exponent := scale }).map fun leaf => (leaf, rest)
      | [] => (floatLeaf? { negative, digits, exponent := scale }).map fun leaf => (leaf, rest)
  | c :: rest =>
    if isExponentMark c then
      (readExponent? rest).bind fun (e, rest) =>
        (floatLeaf? { negative, digits := Decimal.ofDigits whole, exponent := e }).map fun leaf => (leaf, rest)
    else (wholeLeaf? negative (Decimal.ofDigits whole)).map fun leaf => (leaf, c :: rest)
  | [] => (wholeLeaf? negative (Decimal.ofDigits whole)).map fun leaf => (leaf, [])

/-- Read a number without its sign. -/
def readUnsigned? (negative : Bool) : List Char → Option (Tree Float × List Char)
  | 'i' :: 'n' :: 'f' :: rest => some (.real (if negative then -(1.0 / 0.0) else 1.0 / 0.0), rest)
  | 'n' :: 'a' :: 'n' :: rest => some (.real (0.0 / 0.0), rest)
  | cs => (readWhole? cs).bind fun (whole, rest) => readDecimalTail? negative whole rest

/-- Read a whole number after the mark of its base. -/
def readBased? (base : Nat) (cs : List Char) : Option (Tree Float × List Char) :=
  (readParted? base cs).bind fun (ds, rest) =>
    (wholeLeaf? false (valueIn base ds)).map fun leaf => (leaf, rest)

/-- Read a number. A base is marked only without a sign. -/
def readNumber? : List Char → Option (Tree Float × List Char)
  | '0' :: 'x' :: rest => readBased? 16 rest
  | '0' :: 'o' :: rest => readBased? 8 rest
  | '0' :: 'b' :: rest => readBased? 2 rest
  | '+' :: rest => readUnsigned? false rest
  | '-' :: rest => readUnsigned? true rest
  | rest => readUnsigned? false rest

/-- Exactly `count` digits that write a number in a range, and what follows. -/
def readField? (count low high : Nat) (cs : List Char) : Option (Nat × List Char) :=
  let digits := cs.take count
  let n := Decimal.ofDigits digits
  if digits.length = count ∧ digits.all Char.isDigit ∧ low ≤ n ∧ n ≤ high then some (n, cs.drop count)
  else none

/-- A character that has to follow. -/
def expect? (mark : Char) : List Char → Option (List Char)
  | c :: rest => if c = mark then some rest else none
  | [] => none

/-- How many days a month has. -/
def daysIn (year month : Nat) : Nat :=
  if month = 2 then
    if year % 4 = 0 ∧ (year % 100 ≠ 0 ∨ year % 400 = 0) then 29 else 28
  else if month = 4 ∨ month = 6 ∨ month = 9 ∨ month = 11 then 30
  else 31

/-- Read a date. -/
def readDate? (cs : List Char) : Option (List Char) := do
  let (year, cs) ← readField? 4 0 9999 cs
  let cs ← expect? '-' cs
  let (month, cs) ← readField? 2 1 12 cs
  let cs ← expect? '-' cs
  let (_, cs) ← readField? 2 1 (daysIn year month) cs
  return cs

/-- Read a fraction of a second, if a point leads the text. -/
def readSecondFraction? : List Char → Option (List Char)
  | '.' :: rest =>
    let (digits, rest) := Decimal.spanDigits rest
    if digits.isEmpty then none else some rest
  | rest => some rest

/-- Read a time of day. A minute may have a sixty-first second. -/
def readTime? (cs : List Char) : Option (List Char) := do
  let (_, cs) ← readField? 2 0 23 cs
  let cs ← expect? ':' cs
  let (_, cs) ← readField? 2 0 59 cs
  let cs ← expect? ':' cs
  let (_, cs) ← readField? 2 0 60 cs
  readSecondFraction? cs

/-- Read an offset from universal time, if one leads the text. -/
def readOffset? : List Char → Option (List Char)
  | 'Z' :: rest => some rest
  | 'z' :: rest => some rest
  | c :: rest =>
    if c = '+' ∨ c = '-' then do
      let (_, cs) ← readField? 2 0 23 rest
      let cs ← expect? ':' cs
      let (_, cs) ← readField? 2 0 59 cs
      return cs
    else some (c :: rest)
  | [] => some []

/-- Read a date, a date and a time, or a time. -/
def readStamp? (cs : List Char) : Option (List Char) :=
  match readDate? cs with
  | some rest =>
    match rest with
    | c :: tail =>
      if c = 'T' ∨ c = 't' ∨ c = ' ' then
        match readTime? tail with
        | some tail => readOffset? tail
        | none => some rest
      else some rest
    | [] => some []
  | none => readTime? cs

/-- Read a date, a time or a number. -/
def readStampOrNumber? (cs : List Char) : Option (Tree Float × List Char) :=
  match readStamp? cs with
  | some rest => some (.stamp, rest)
  | none => readNumber? cs

end ActorPlacement.Toml
