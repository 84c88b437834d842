import ActorPlacement.Options.Basic

/-!
# What can go wrong

Every failure is its cause; the words for it are in one function each. `Failure.message` is the
whole text, `Failure.source?` the text of a failure beneath it that is told separately.
-/

namespace ActorPlacement

/-- Why a scheduler refuses a request outright. -/
inductive Refusal (Q : Type) where
  | noBundles
  | badBundle (index : Nat) (fault : BundleFault Q)
  | bundleTooLarge (index : Nat) (bundle : Bundle Q)
  | totalTooLarge (total : Bundle Q)
  | tooFewNodes (needed available : Nat)
  | stated (text : String)

/-- The words for a refusal. -/
def Refusal.message {Q : Type} [WrittenQuantity Q] : Refusal Q → String
  | noBundles => "no bundles requested"
  | badBundle index fault => "bundle " ++ toString index ++ ": " ++ fault.message
  | bundleTooLarge index bundle =>
    "bundle " ++ toString index ++ " " ++ Bundle.text bundle ++ " exceeds every node's capacity"
  | totalTooLarge total => "STRICT_PACK total " ++ Bundle.text total ++ " exceeds every node's capacity"
  | tooFewNodes needed available =>
    "STRICT_SPREAD needs " ++ toString needed ++ " nodes, cluster has " ++ toString available
  | stated text => text

/-- What a scheduler answers instead of doing what it is asked. -/
inductive SchedulerError (Q : Type) where
  | rejected (why : Refusal Q)
  | unknownReservation (token : Token)
  | unavailable (text : String)

/-- The words for a scheduler's error. -/
def SchedulerError.message {Q : Type} [WrittenQuantity Q] : SchedulerError Q → String
  | rejected why => "reservation rejected: " ++ why.message
  | unknownReservation token => "unknown reservation: " ++ token.text
  | unavailable text => "scheduler unavailable: " ++ text

/-- Why a reservation did not become ready. -/
inductive NotReady (Q : Type) where
  | refused (error : SchedulerError Q)
  | timedOut
  | stated (text : String)

/-- The words for a reservation that did not become ready within `timeout`. -/
def NotReady.message {Q : Type} [WrittenQuantity Q] (timeout : Duration) : NotReady Q → String
  | refused error => error.message
  | timedOut => "not ready after " ++ oneDecimal timeout.toFloat ++ "s"
  | stated text => text

/-- What a backend that is not running was needed for. -/
inductive BackendNeed where
  | construct (className : String)
  | materialize
  | stated (text : String)
  deriving DecidableEq

/-- The words for a backend that is not running. -/
def BackendNeed.message : BackendNeed → String
  | construct className => "cannot construct " ++ className ++ ": execution backend is not initialized"
  | materialize => "local execution backend is not initialized"
  | stated text => text

/-- Why a configuration cannot be used. -/
inductive ConfigFault (Q : Type) where
  | unreadable (path why : String)
  | malformed
  | badNode (id : String) (fault : BundleFault Q)
  | unknownClass (name : String)
  | badDuration (field raw : String)
  | inClass (name : String) (fault : ConfigFault Q)
  | stated (text : String)

/-- The words for a fault in a configuration. -/
def ConfigFault.message {Q : Type} [WrittenQuantity Q] : ConfigFault Q → String
  | unreadable path why => "read " ++ path ++ ": " ++ why
  | malformed => "TOML parse error"
  | badNode id fault => "node `" ++ id ++ "`: " ++ fault.message
  | unknownClass name => "unknown actor class `" ++ name ++ "`"
  | badDuration field raw => field ++ ": invalid duration `" ++ raw ++ "`"
  | inClass name fault => "classes." ++ name ++ ": " ++ fault.message
  | stated text => text

/-- What an actor reports when it cannot be created or warmed up. -/
structure InitFailure where
  className : String
  message : String
  source : Option String := none
  deriving DecidableEq

/-- The words for an actor that could not start. -/
def InitFailure.text (f : InitFailure) : String :=
  "actor `" ++ f.className ++ "` failed to initialize: " ++ f.message

/-- Everything that placing, resolving and constructing can fail with. -/
inductive Failure (Q : Type) [Quantity Q] where
  /-- The backend is not running. -/
  | backend (need : BackendNeed)
  /-- A reservation was refused, or not ready in time and released again. -/
  | notReady (timeout : Duration) (reason : NotReady Q)
  /-- An option has no usable value. -/
  | option (bad : BadOption Q)
  /-- The actor itself failed; its report is passed on unchanged. -/
  | actor (failure : InitFailure)
  /-- Parts do not make a spec. -/
  | spec (fault : SpecFault Q)
  /-- The configuration cannot be used. -/
  | config (fault : ConfigFault Q)
  /-- The scheduler failed while a reservation was awaited. -/
  | scheduler (error : SchedulerError Q)

namespace Failure

variable {Q : Type}

/-- The words for a failure. -/
def message [WrittenQuantity Q] : Failure Q → String
  | backend need => "execution backend unavailable: " ++ need.message
  | notReady timeout reason =>
    "placement group not ready (timeout " ++ timeout.text ++ "): " ++ reason.message timeout
  | option bad => "invalid actor option `" ++ bad.key ++ "`: " ++ bad.fault.message
  | actor failure => failure.text
  | spec fault => "invalid placement spec: " ++ fault.message
  | config fault => "configuration error: " ++ fault.message
  | scheduler error => "scheduler error: " ++ error.message

/-- The words for the failure beneath this one, if it is told separately. -/
def source? [WrittenQuantity Q] : Failure Q → Option String
  | scheduler error => some error.message
  | actor failure => failure.source
  | _ => none

/-- The failure's words, then those of the failure beneath. -/
def chain [WrittenQuantity Q] (f : Failure Q) : List String := f.message :: f.source?.toList

end Failure

end ActorPlacement
