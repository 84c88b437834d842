import ActorPlacement.Bundle
import ActorPlacement.Duration
import ActorPlacement.Strategy

/-!
# Placement specs

What to reserve: bundles in order, a strategy, and how long to wait. A `PlacementSpec` is valid by
construction; `PlacementSpec.make` is the only way from parts to a spec and names the first fault.
-/

namespace ActorPlacement

/-- Why parts do not make a spec. -/
inductive SpecFault (Q : Type) where
  | unknownStrategy (name : String)
  | noBundles
  | zeroTimeout
  | badBundle (index : Nat) (fault : BundleFault Q)
  | stated (text : String)
  deriving DecidableEq

/-- The words for a fault in a spec. -/
def SpecFault.message {Q : Type} [WrittenQuantity Q] : SpecFault Q → String
  | unknownStrategy name => "unknown placement strategy `" ++ name ++ "`"
  | noBundles => "at least one bundle is required"
  | zeroTimeout => "timeout must be greater than zero"
  | badBundle index fault => "bundle " ++ toString index ++ ": " ++ fault.message
  | stated text => text

/-- Read a strategy in any ASCII letter case, with blanks around it. -/
def Strategy.ofText {Q : Type} (raw : String) : Except (SpecFault Q) Strategy :=
  match ofName? (canonical raw) with
  | some strategy => .ok strategy
  | none => .error (.unknownStrategy (canonical raw))

/-- Some bundles to reserve under a strategy, and how long to wait for them. -/
structure PlacementSpec (Q : Type) [Quantity Q] where
  bundles : List (Bundle Q)
  strategy : Strategy
  timeout : Duration
  bundles_ne_nil : bundles ≠ []
  timeout_ne_zero : timeout.isZero = false
  faultless : firstBundleFault? bundles = none

namespace PlacementSpec

variable {Q : Type}

/-- How long to wait when nothing is said. -/
def defaultTimeout : Duration := Duration.halfMinute

/-- The strategy when nothing is said. -/
def defaultStrategy : Strategy := .pack

/-- Make a spec of its parts. -/
def make [Quantity Q] (bundles : List (Bundle Q)) (strategy : Strategy) (timeout : Duration) :
    Except (SpecFault Q) (PlacementSpec Q) :=
  if hb : bundles = [] then .error .noBundles
  else if ht : timeout.isZero then .error .zeroTimeout
  else
    match hf : firstBundleFault? bundles with
    | some (index, fault) => .error (.badBundle index fault)
    | none => .ok ⟨bundles, strategy, timeout, hb, by simpa using ht, hf⟩

/-- Make a spec with the default strategy and timeout where nothing is said. -/
def makeWith [Quantity Q] (bundles : List (Bundle Q)) (strategy : Option Strategy)
    (timeout : Option Duration) : Except (SpecFault Q) (PlacementSpec Q) :=
  make bundles (strategy.getD defaultStrategy) (timeout.getD defaultTimeout)

/-- Whether a reservation made for `have_` satisfies `need`: the same strategy, and each bundle that
`need` asks for is covered by the one in its place. Further bundles do no harm. -/
def covers [Quantity Q] (have_ need : PlacementSpec Q) : Bool :=
  have_.strategy == need.strategy
    && need.bundles.length ≤ have_.bundles.length
    && (have_.bundles.zip need.bundles).all fun p => Bundle.covers p.1 p.2

instance [Quantity Q] : BEq (PlacementSpec Q) where
  beq a b := a.bundles == b.bundles && a.strategy == b.strategy && a.timeout == b.timeout

/-- The spec as messages write it. -/
def text [WrittenQuantity Q] (spec : PlacementSpec Q) : String :=
  spec.strategy.name ++ "[" ++ joinedWith ", " (spec.bundles.map Bundle.text) ++ "] within "
    ++ spec.timeout.text

end PlacementSpec

end ActorPlacement
