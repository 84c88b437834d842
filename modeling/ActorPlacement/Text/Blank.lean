/-!
# Blank characters

The characters with the property White_Space, and texts without blanks at their ends.
-/

namespace ActorPlacement

/-- Whether a character has the property White_Space. -/
def isBlank (c : Char) : Bool :=
  let n := c.toNat
  (0x09 ≤ n && n ≤ 0x0D) || n == 0x20 || n == 0x85 || n == 0xA0 || n == 0x1680
    || (0x2000 ≤ n && n ≤ 0x200A) || n == 0x2028 || n == 0x2029 || n == 0x202F || n == 0x205F
    || n == 0x3000

/-- Drop blanks from the front. -/
def dropBlanks (cs : List Char) : List Char := cs.dropWhile isBlank

/-- Drop blanks from both ends. -/
def trimBlanks (cs : List Char) : List Char := (dropBlanks (dropBlanks cs).reverse).reverse

/-- The text without blanks at its ends. -/
def trimmed (s : String) : String := String.ofList (trimBlanks s.toList)

end ActorPlacement
