/-!
# Ends of texts
-/

namespace ActorPlacement

/-- The text before `tail`, if the text ends in it. -/
def before? (s tail : String) : Option String :=
  let cs := s.toList
  let ts := tail.toList
  if ts.isSuffixOf cs then some (String.ofList (cs.take (cs.length - ts.length))) else none

/-- The texts before and after the first occurrence of `mark`. -/
def cutAt? (mark : Char) (s : String) : Option (String × String) :=
  match s.toList.span (· != mark) with
  | (_, []) => none
  | (front, _ :: back) => some (String.ofList front, String.ofList back)

/-- The items with `mark` between them. -/
def joinedWith (mark : String) (items : List String) : String := String.intercalate mark items

end ActorPlacement
