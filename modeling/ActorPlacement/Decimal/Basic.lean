/-!
# Written decimal numbers

A `Decimal` is a number as it was written: a sign, a whole number of digits and a power of
ten. Reading a text into a `Decimal` loses nothing; `toFloat` is the one place where such a
number is rounded to a double.
-/

namespace ActorPlacement

/-- The number `±digits · 10 ^ exponent`. -/
structure Decimal where
  negative : Bool := false
  digits : Nat
  exponent : Int := 0
  deriving DecidableEq, Repr

namespace Decimal

/-- The value of an ASCII digit. -/
def digitValue (c : Char) : Nat := c.toNat - '0'.toNat

/-- The number that a run of ASCII digits writes. -/
def ofDigits (cs : List Char) : Nat := cs.foldl (fun n c => 10 * n + digitValue c) 0

/-- The digits of `n`, most significant first. -/
def digitsOf (n : Nat) : List Char := Nat.toDigits 10 n

/-- How many digits `n` has; zero has one. -/
def digitCount (n : Nat) : Nat := (digitsOf n).length

/-- Split off the leading run of ASCII digits. -/
def spanDigits (cs : List Char) : List Char × List Char := cs.span Char.isDigit

/-- A sign, if one leads the text: whether it is a minus, and what follows it. -/
def spanSign : List Char → Bool × List Char
  | '+' :: rest => (false, rest)
  | '-' :: rest => (true, rest)
  | rest => (false, rest)

/-- The nearest double. Beyond the doubles' range the answer is an infinity or a zero, which
the powers of ten decide without being computed. -/
def toFloat (d : Decimal) : Float :=
  let size := d.exponent + digitCount d.digits
  let magnitude : Float :=
    if d.digits = 0 then 0.0
    else if size > 310 then 1.0 / 0.0
    else if size < -330 then 0.0
    else if d.exponent < 0 then Float.ofScientific d.digits true d.exponent.natAbs
    else Float.ofScientific d.digits false d.exponent.natAbs
  if d.negative then -magnitude else magnitude

/-- The exact value. -/
def toRat (d : Decimal) : Rat :=
  let magnitude : Rat :=
    if d.exponent < 0 then mkRat d.digits (Nat.pow 10 d.exponent.natAbs)
    else (d.digits * Nat.pow 10 d.exponent.natAbs : Nat)
  if d.negative then -magnitude else magnitude

/-- The power of ten after an exponent mark, with its sign; at least one digit and nothing
after the digits. -/
def exponentOf? (cs : List Char) : Option Int :=
  let (minus, rest) := spanSign cs
  let (digits, rest) := spanDigits rest
  if digits.isEmpty || !rest.isEmpty then none
  else some (if minus then -(ofDigits digits : Int) else ofDigits digits)

/-- An unsigned number with an optional fraction and an optional exponent. There is at least one
digit before or after the point, and either side of the point may be empty. -/
def unsignedOf? (cs : List Char) : Option Decimal :=
  let (whole, rest) := spanDigits cs
  let (fraction, rest) :=
    match rest with
    | '.' :: rest => spanDigits rest
    | rest => ([], rest)
  if whole.isEmpty && fraction.isEmpty then none
  else
    let digits := ofDigits (whole ++ fraction)
    let scale : Int := -(fraction.length : Int)
    match rest with
    | [] => some { digits, exponent := scale }
    | c :: rest =>
      if c = 'e' || c = 'E' then
        (exponentOf? rest).map fun e => { digits, exponent := scale + e }
      else none

end Decimal

/-- A double as free text: an optional sign, then a decimal number or one of `inf`, `infinity`
and `nan` in any letter case. Nothing may surround it. -/
def floatOfText? (s : String) : Option Float :=
  let (minus, rest) := Decimal.spanSign s.toList
  let signed (x : Float) : Float := if minus then -x else x
  match rest.map Char.toLower with
  | ['i', 'n', 'f'] => some (signed (1.0 / 0.0))
  | ['i', 'n', 'f', 'i', 'n', 'i', 't', 'y'] => some (signed (1.0 / 0.0))
  | ['n', 'a', 'n'] => some (0.0 / 0.0)
  | _ => (Decimal.unsignedOf? rest).map fun d => signed d.toFloat

/-- An unsigned number below `2 ^ bits`, as decimal digits that a single plus may lead. -/
def wordOfText? (bits : Nat) (s : String) : Option Nat :=
  let digits :=
    match s.toList with
    | '+' :: rest => rest
    | cs => cs
  if digits.isEmpty || !digits.all Char.isDigit then none
  else
    let n := Decimal.ofDigits digits
    if n < Nat.pow 2 bits then some n else none

end ActorPlacement
