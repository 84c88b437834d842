import ActorPlacement.Protocol.Basic

/-!
# Reserving and releasing

An attempt to reserve goes from requested to ready, or from requested to timed out and then to
released. Nothing is tried twice. When the wait fails or takes too long, the reservation is given
back before the failure is answered, and what the release answers changes nothing in that failure.
-/

namespace ActorPlacement

variable {Q : Type} [Quantity Q]

/-- Give a reservation back and record how that went. If it fails the reservation is left in `stage`. -/
def releaseToken (token : Token) (stage : Stage) : Protocol Q Unit := do
  match ← Protocol.release token with
  | .ok () => Protocol.record (.released token)
  | .error error => Protocol.record (.releaseFailed token stage error)

/-- Reserve what `spec` says and wait until it is ready. Who gets a handle has to release it. -/
def reserve (spec : PlacementSpec Q) : Protocol Q (Except (Failure Q) (Handle Q)) := do
  match ← Protocol.submit spec.bundles spec.strategy with
  | .error error =>
    Protocol.record (.refused spec error)
    return .error (.notReady spec.timeout (.refused error))
  | .ok token =>
    Protocol.record (.requested token spec)
    let started ← Protocol.clock
    match ← Protocol.wait token spec.timeout with
    | .ok true =>
      let finished ← Protocol.clock
      Protocol.record (.ready token spec (finished - started))
      return .ok ⟨token, spec⟩
    | .ok false =>
      Protocol.record (.timedOut token spec)
      releaseToken token .timedOut
      return .error (.notReady spec.timeout .timedOut)
    | .error error =>
      Protocol.record (.waitFailed token error)
      releaseToken token .timedOut
      return .error (.scheduler error)

/-- Give back the reservation of a handle, if there is one. -/
def releaseHandle : Option (Handle Q) → Protocol Q Unit
  | none => pure ()
  | some handle => releaseToken handle.token .ready

end ActorPlacement
