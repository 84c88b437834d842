import ActorPlacement.Config.Basic
import ActorPlacement.Json.Printer
import ActorPlacement.Json.Reader
import ActorPlacement.Options.Basic
import ActorPlacement.Quantity.Double

/-!
# Values as JSON texts

Strategies and lifetimes are named by a text, or by an object whose only entry has that name and no
value. Tokens are texts, bundles objects of numbers.
-/

namespace ActorPlacement

/-- The name of a case without contents. -/
def Tree.case? {Q : Type} : Tree Q → Option String
  | .text name => some name
  | .table [(name, .absent)] => some name
  | _ => none

namespace Strategy

/-- Read a strategy from JSON. -/
def ofJson? (s : String) : Option Strategy :=
  ((Json.readTree? s : Option (Tree Float)).bind Tree.case?).bind ofName?

/-- Write a strategy as JSON. -/
def toJson (s : Strategy) : String := Json.quoted s.name

end Strategy

namespace Lifetime

/-- Read a lifetime from JSON. -/
def ofJson? (s : String) : Option Lifetime :=
  ((Json.readTree? s : Option (Tree Float)).bind Tree.case?).bind ofName?

/-- Write a lifetime as JSON. -/
def toJson (l : Lifetime) : String := Json.quoted l.name

end Lifetime

namespace Token

/-- Read a token from JSON. -/
def ofJson? (s : String) : Option Token :=
  ((Json.readTree? s : Option (Tree Float)).bind Tree.text?).map Token.mk

/-- Write a token as JSON. -/
def toJson (t : Token) : String := Json.quoted t.text

end Token

/-- Write a handle as JSON: only its token is written. -/
def Handle.toJson {Q : Type} [Quantity Q] (h : Handle Q) : String := h.token.toJson

namespace Bundle

variable {Q : Type} [WrittenQuantity Q]

/-- Read a bundle from JSON. -/
def ofJson? (s : String) : Option (Bundle Q) := (Json.readTree? s).bind (Tree.map? Tree.quantity?)

/-- Write a bundle as JSON. -/
def toJson (b : Bundle Q) : String := Json.compact (treeOfQuantities b)

end Bundle

end ActorPlacement
