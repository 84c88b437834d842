import ActorPlacement.Text.Blank

/-!
# Placement strategies

How the bundles of one reservation lie on the nodes.
-/

namespace ActorPlacement

/-- How the bundles of one reservation lie on the nodes. -/
inductive Strategy where
  /-- Together where possible, else on several nodes. -/
  | pack
  /-- Apart where possible, else several on a node. -/
  | spread
  /-- All on one node or not at all. -/
  | strictPack
  /-- Each on a node of its own or not at all. -/
  | strictSpread
  deriving DecidableEq, Repr, Inhabited

namespace Strategy

/-- Every strategy. -/
def all : List Strategy := [pack, spread, strictPack, strictSpread]

/-- The strategy's written name. -/
def name : Strategy → String
  | pack => "PACK"
  | spread => "SPREAD"
  | strictPack => "STRICT_PACK"
  | strictSpread => "STRICT_SPREAD"

/-- The strategy of that very name. -/
def ofName? (s : String) : Option Strategy := all.find? fun strategy => strategy.name == s

/-- A written name with blanks around it removed and ASCII letters raised. -/
def canonical (raw : String) : String := String.ofList ((trimBlanks raw.toList).map Char.toUpper)

theorem ofName?_name (s : Strategy) : ofName? s.name = some s := by cases s <;> decide

end Strategy

end ActorPlacement
