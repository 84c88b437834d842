import ActorPlacement.Failure

/-!
# What an attempt to reserve puts on record

An `Event` is the fact; `Event.level`, `Event.message` and `Event.fields` say how a log shows it.
-/

namespace ActorPlacement

/-- Where an attempt to reserve stands. -/
inductive Stage where
  | requested
  | ready
  | timedOut
  | released
  deriving DecidableEq, Repr

/-- The written name of a stage. -/
def Stage.name : Stage → String
  | requested => "REQUESTED"
  | ready => "READY"
  | timedOut => "TIMED_OUT"
  | released => "RELEASED"

/-- A fact about one attempt to reserve. -/
inductive Event (Q : Type) [Quantity Q] where
  /-- The scheduler refused the request outright. -/
  | refused (spec : PlacementSpec Q) (error : SchedulerError Q)
  /-- The scheduler issued a token. -/
  | requested (token : Token) (spec : PlacementSpec Q)
  /-- The reservation became ready. -/
  | ready (token : Token) (spec : PlacementSpec Q) (waitedMillis : Nat)
  /-- The reservation was not ready in time. -/
  | timedOut (token : Token) (spec : PlacementSpec Q)
  /-- The scheduler failed while the reservation was awaited. -/
  | waitFailed (token : Token) (error : SchedulerError Q)
  /-- The reservation was given back. -/
  | released (token : Token)
  /-- The scheduler did not take the reservation back, which leaves it where it stood. -/
  | releaseFailed (token : Token) (left : Stage) (error : SchedulerError Q)

/-- How much attention an event asks for. -/
inductive Level where
  | debug
  | info
  | warn
  deriving DecidableEq, Repr

/-- The written name of a level. -/
def Level.name : Level → String
  | debug => "DEBUG"
  | info => "INFO"
  | warn => "WARN"

namespace Event

variable {Q : Type}

/-- The level that an event is logged at. -/
def level [Quantity Q] : Event Q → Level
  | requested _ _ => .debug
  | ready _ _ _ => .debug
  | released _ => .info
  | refused _ _ => .warn
  | timedOut _ _ => .warn
  | waitFailed _ _ => .warn
  | releaseFailed _ _ _ => .warn

/-- The message that an event is logged with. -/
def message [Quantity Q] : Event Q → String
  | refused _ _ => "placement group request refused"
  | requested _ _ => "placement group requested"
  | ready _ _ _ => "placement group ready"
  | timedOut _ _ => "placement group not ready in time"
  | waitFailed _ _ => "waiting on placement group failed"
  | released _ => "placement group removed"
  | releaseFailed _ _ _ => "failed to remove placement group"

/-- The fields that are logged with an event. -/
def fields [WrittenQuantity Q] : Event Q → List (String × String)
  | refused spec error => [("spec", spec.text), ("error", error.message)]
  | requested token spec =>
    [("token", token.text), ("spec", spec.text), ("state", Stage.requested.name)]
  | ready token spec waitedMillis =>
    [("handle", token.text), ("spec", spec.text), ("waited_ms", toString waitedMillis),
      ("state", Stage.ready.name)]
  | timedOut token spec =>
    [("token", token.text), ("spec", spec.text),
      ("timeout_s", FloatStyle.plain.write spec.timeout.toFloat), ("state", Stage.timedOut.name)]
  | waitFailed token error => [("token", token.text), ("error", error.message)]
  | released token => [("token", token.text), ("state", Stage.released.name)]
  | releaseFailed token left error =>
    [("token", token.text), ("state", left.name), ("error", error.message)]

end Event

end ActorPlacement
