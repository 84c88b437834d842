import ActorPlacement.Decimal.Rounded
import ActorPlacement.Decimal.Style
import ActorPlacement.Text.Affix
import ActorPlacement.Text.Blank

/-!
# Durations

A span of time in whole nanoseconds, of fewer than `2 ^ 64` seconds. `Duration.ofText?` reads the
short forms of configuration files (`5s`, `500ms`, `2m`, `10`); `Duration.text` writes the largest
unit that the span fills, with a fraction.
-/

namespace ActorPlacement

/-- A span of time. -/
structure Duration where
  nanos : Nat
  lt_limit : nanos < UInt64.size * 1000000000
  deriving DecidableEq

namespace Duration

/-- Nanoseconds in a second. -/
def second : Nat := 1000000000

/-- Nanoseconds in a millisecond. -/
def millisecond : Nat := 1000000

/-- The span of `n` nanoseconds, unless it is too long. -/
def ofNanos? (n : Nat) : Option Duration :=
  if h : n < UInt64.size * 1000000000 then some ⟨n, h⟩ else none

/-- The span of `n` seconds, unless it is too long. -/
def ofSeconds? (n : Nat) : Option Duration := ofNanos? (n * second)

/-- The span of `n` milliseconds, unless it is too long. -/
def ofMillis? (n : Nat) : Option Duration := ofNanos? (n * millisecond)

/-- Thirty seconds. -/
def halfMinute : Duration := ⟨30 * 1000000000, by decide⟩

/-- Whether no time passes. -/
def isZero (d : Duration) : Bool := d.nanos == 0

/-- Whole seconds. -/
def seconds (d : Duration) : Nat := d.nanos / second

/-- Whole milliseconds, a part of one counted as one. -/
def millisRoundedUp (d : Duration) : Nat := (d.nanos + (millisecond - 1)) / millisecond

/-- The nearest nanosecond to a number of seconds, unless it is negative, undefined or too long;
a tie goes to the even nanosecond. -/
def ofFloatSeconds? (x : Float) : Option Duration :=
  match Binary64.ofFloat x with
  | .nan => none
  | .infinite _ => none
  | .finite negative mantissa exponent =>
    if negative && mantissa != 0 then none
    else
      let (num, den) := Binary64.ratio mantissa exponent
      ofNanos? (roundHalfEven (num * second) den)

/-- Seconds as a double: the nearest double to the whole seconds plus that of the rest. -/
def toFloat (d : Duration) : Float :=
  Float.ofNat d.seconds + Float.ofNat (d.nanos % second) / Float.ofNat second

/-- A number of units with a fraction of `places` digits, its trailing zeros left out. -/
def withFraction (whole rest places : Nat) : String :=
  let digits := Decimal.digitsOf rest
  let padded := List.replicate (places - digits.length) '0' ++ digits
  let kept := (padded.reverse.dropWhile (· == '0')).reverse
  toString whole ++ (if kept.isEmpty then "" else "." ++ String.ofList kept)

/-- The duration in the largest unit of which it holds at least one. -/
def text (d : Duration) : String :=
  let n := d.nanos
  if second ≤ n then withFraction (n / second) (n % second) 9 ++ "s"
  else if millisecond ≤ n then withFraction (n / millisecond) (n % millisecond) 6 ++ "ms"
  else if 1000 ≤ n then withFraction (n / 1000) (n % 1000) 3 ++ "µs"
  else toString n ++ "ns"

/-- Read `..ms`, `..s`, `..m` or a bare number of seconds. Blanks around the text do not count.
Only seconds may have a fraction; they are read as a double. -/
def ofText? (raw : String) : Option Duration :=
  let s := trimmed raw
  match before? s "ms" with
  | some n => (wordOfText? 64 n).bind ofMillis?
  | none =>
    match before? s "s" with
    | some n => (floatOfText? n).bind ofFloatSeconds?
    | none =>
      match before? s "m" with
      | some n => (wordOfText? 64 n).bind fun m => if 60 * m < UInt64.size then ofSeconds? (60 * m) else none
      | none => (wordOfText? 64 s).bind ofSeconds?

end Duration

end ActorPlacement
