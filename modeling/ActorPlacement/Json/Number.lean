import ActorPlacement.Tree.Basic

/-!
# JSON numbers

A number without fraction and exponent that fits a 64-bit word is whole, except `-0`. Of any other
number only the leading digits that fit an unsigned 64-bit word are kept; what the dropped digits
of the whole part stood for goes into the power of ten.
-/

namespace ActorPlacement.Json

/-- Digits kept so far, and the power of ten that they are to be multiplied with. -/
structure Kept where
  digits : Nat
  exponent : Int

/-- The number with one more digit, if it still fits an unsigned 64-bit word. -/
def appendDigit? (digits : Nat) (c : Char) : Option Nat :=
  let n := 10 * digits + Decimal.digitValue c
  if n < UInt64.size then some n else none

/-- Keep the digits of a whole part. The first that does not fit ends the kept digits. -/
def keepWhole : Nat → List Char → Kept
  | digits, [] => ⟨digits, 0⟩
  | digits, c :: rest =>
    match appendDigit? digits c with
    | some digits => keepWhole digits rest
    | none => ⟨digits, rest.length + 1⟩

/-- Keep the digits of a fraction, as long as they fit. -/
def keepFraction : Kept → List Char → Kept
  | kept, [] => kept
  | kept, c :: rest =>
    match appendDigit? kept.digits c with
    | some digits => keepFraction ⟨digits, kept.exponent - 1⟩ rest
    | none => kept

/-- A power of ten after its mark: the number and what follows it. -/
def spanExponent? (cs : List Char) : Option (Int × List Char) :=
  let (minus, rest) := Decimal.spanSign cs
  let (digits, rest) := Decimal.spanDigits rest
  if digits.isEmpty then none
  else some (if minus then -(Decimal.ofDigits digits : Int) else Decimal.ofDigits digits, rest)

/-- A fraction, if a point leads the text: its digits, at least one, and what follows them. -/
def spanFraction? : List Char → Option (Option (List Char) × List Char)
  | '.' :: rest =>
    let (digits, rest) := Decimal.spanDigits rest
    if digits.isEmpty then none else some (some digits, rest)
  | rest => some (none, rest)

/-- An exponent, if its mark leads the text, and what follows it. -/
def spanOptionalExponent? : List Char → Option (Option Int × List Char)
  | 'e' :: rest => (spanExponent? rest).map fun (e, rest) => (some e, rest)
  | 'E' :: rest => (spanExponent? rest).map fun (e, rest) => (some e, rest)
  | rest => some (none, rest)

/-- The leaf that a decimal number makes. -/
def leafOfDecimal {Q : Type} [WrittenQuantity Q] (d : Decimal) : Tree Q :=
  match WrittenQuantity.ofDecimal? d with
  | some x => .real x
  | none => .unread

/-- The leaf that a number makes of its parts. -/
def leafOfParts {Q : Type} [WrittenQuantity Q] (negative : Bool) (whole : List Char)
    (fraction : Option (List Char)) (exponent : Option Int) : Tree Q :=
  let kept := keepWhole 0 whole
  let inexact := leafOfDecimal
    { negative
      digits := (keepFraction kept (fraction.getD [])).digits
      exponent := (keepFraction kept (fraction.getD [])).exponent + exponent.getD 0 }
  if fraction.isSome || exponent.isSome then inexact
  else
    let n := Decimal.ofDigits whole
    if negative then (if 0 < n ∧ n ≤ UInt64.size / 2 then .whole (-n) else inexact)
    else if n < UInt64.size then .whole n
    else inexact

/-- Read a number without its sign: no needless leading zero, and digits wherever the grammar asks
for them. -/
def readUnsigned? {Q : Type} [WrittenQuantity Q] (negative : Bool) (cs : List Char) :
    Option (Tree Q × List Char) :=
  let (whole, rest) := Decimal.spanDigits cs
  if whole.isEmpty || (whole.head? == some '0' && 1 < whole.length) then none
  else
    (spanFraction? rest).bind fun (fraction, rest) =>
      (spanOptionalExponent? rest).map fun (exponent, rest) =>
        (leafOfParts negative whole fraction exponent, rest)

/-- Read a number. -/
def readNumber? {Q : Type} [WrittenQuantity Q] : List Char → Option (Tree Q × List Char)
  | '-' :: rest => readUnsigned? true rest
  | rest => readUnsigned? false rest

end ActorPlacement.Json
