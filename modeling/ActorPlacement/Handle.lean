import ActorPlacement.Spec

/-!
# Tokens and handles of reservations
-/

namespace ActorPlacement

/-- The name that a scheduler gives to one reservation. -/
structure Token where
  text : String
  deriving DecidableEq, Inhabited

/-- Tokens compare as their texts do. -/
instance : LT Token := ⟨fun a b => a.text < b.text⟩

instance (a b : Token) : Decidable (a < b) := inferInstanceAs (Decidable (a.text < b.text))

/-- A ready reservation and the spec it was made for. Holding one keeps nothing reserved; the
reservation lasts until its token is released. -/
structure Handle (Q : Type) [Quantity Q] where
  token : Token
  spec : PlacementSpec Q

/-- Handles are the same when their tokens are. -/
instance {Q : Type} [Quantity Q] : BEq (Handle Q) := ⟨fun a b => a.token == b.token⟩

end ActorPlacement
