import ActorPlacement.Decimal.Rounded
import ActorPlacement.Decimal.Shortest

/-!
# How a format writes doubles

Every format of this library writes the shortest digits that read back. What else it decides is
one `FloatStyle`: which powers of ten are written out in positions, whether a whole number keeps a
fraction digit, and the words for what is no number.
-/

namespace ActorPlacement

/-- A format's decisions about doubles. -/
structure FloatStyle where
  /-- Which of two equally near shortest numbers is written. -/
  tie : Tie
  /-- The leading digit's powers of ten that are written in positions; all of them if `none`. -/
  positional : Option (Int × Int)
  /-- What follows a number without a fraction. -/
  whole : String
  nan : String
  infinite : Bool → String

namespace FloatStyle

/-- Digits with a decimal point `fraction` places from the right. -/
def withPoint (digits : List Char) (fraction : Nat) : String :=
  let padded := List.replicate (fraction + 1 - digits.length) '0' ++ digits
  let cut := padded.length - fraction
  String.ofList (padded.take cut) ++ "." ++ String.ofList (padded.drop cut)

/-- Write `digits · 10 ^ exponent` in positions. -/
def inPositions (style : FloatStyle) (digits : List Char) (exponent : Int) : String :=
  if exponent < 0 then withPoint digits exponent.natAbs
  else String.ofList (digits ++ List.replicate exponent.natAbs '0') ++ style.whole

/-- Write the digits with the point after the first, then a signed power of ten. -/
def withPower (digits : List Char) (power : Int) : String :=
  let lead :=
    match digits with
    | [] => ""
    | [d] => String.ofList [d]
    | d :: rest => String.ofList [d] ++ "." ++ String.ofList rest
  lead ++ (if power < 0 then "e-" else "e+") ++ toString power.natAbs

/-- Write a positive finite double. -/
def magnitude (style : FloatStyle) (mantissa : Nat) (exponent : Int) : String :=
  let (number, grid) := shortest style.tie mantissa exponent
  let digits := Decimal.digitsOf number
  let power := grid + digits.length - 1
  match style.positional with
  | none => style.inPositions digits grid
  | some (from_, below) =>
    if from_ ≤ power && power < below then style.inPositions digits grid
    else withPower digits power

/-- Write a double. -/
def write (style : FloatStyle) (x : Float) : String :=
  match Binary64.ofFloat x with
  | .nan => style.nan
  | .infinite negative => style.infinite negative
  | .finite negative mantissa exponent =>
    (if negative then "-" else "")
      ++ (if mantissa = 0 then "0" ++ style.whole else style.magnitude mantissa exponent)

/-- Plain text: always in positions and without a fraction on whole numbers. -/
def plain : FloatStyle where
  tie := .up
  positional := none
  whole := ""
  nan := "NaN"
  infinite negative := if negative then "-inf" else "inf"

/-- A JSON number: positions from `0.00001` to below `10 ^ 16`, always a fraction digit there, and
`null` for what JSON has no number for. -/
def json : FloatStyle where
  tie := .toEven
  positional := some (-5, 16)
  whole := ".0"
  nan := "null"
  infinite _ := "null"

/-- A TOML float: positions throughout and always a fraction digit. -/
def toml : FloatStyle where
  tie := .up
  positional := none
  whole := ".0"
  nan := "nan"
  infinite negative := if negative then "-inf" else "inf"

end FloatStyle

/-- A double's exact value to one place after the point; a tie goes to the even digit. -/
def oneDecimal (x : Float) : String :=
  match Binary64.ofFloat x with
  | .nan => "NaN"
  | .infinite negative => if negative then "-inf" else "inf"
  | .finite negative mantissa exponent =>
    let (num, den) := Binary64.ratio mantissa exponent
    (if negative then "-" else "")
      ++ FloatStyle.withPoint (Decimal.digitsOf (roundHalfEven (10 * num) den)) 1

end ActorPlacement
