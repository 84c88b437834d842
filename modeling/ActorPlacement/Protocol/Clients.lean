import ActorPlacement.Cluster.Alone
import ActorPlacement.Cluster.Run
import ActorPlacement.Protocol.Reserve

/-!
# Many clients of one cluster

Attempts to reserve and releases of the handles that they return take turns on one cluster, in any order,
while nodes join it and drain. A turn is one call of the cluster and what its client does by itself up
to the next call (`Thread.Turn`). A wait is answered by one look at the reservation, at any time: whoever
finds it not ready has waited too long, and who goes on waiting takes no turn.
-/

namespace ActorPlacement

variable {Q : Type} [Quantity Q]

/-- Whether a request is answered without the scheduler. -/
def Request.isLocal : Request Q → Bool
  | submit _ _ | wait _ _ | release _ => false
  | record _ | clock | backendUp | nextActor => true

/-- What a call of a cluster may be answered with, and the cluster after it. -/
inductive Served : Cluster Q → (r : Request Q) → r.Answer → Cluster Q → Prop where
  | submit (c : Cluster Q) (bundles : List (Bundle Q)) (strategy : Strategy) :
    Served c (.submit bundles strategy)
      ((c.submit bundles strategy).2.mapError SchedulerError.rejected) (c.submit bundles strategy).1
  | look (c : Cluster Q) (token : Token) (timeout : Duration) :
    Served c (.wait token timeout) (c.look token) c
  /-- The reservation vanished after the wait began; it may have been ready before. -/
  | vanished (c : Cluster Q) (token : Token) (timeout : Duration) (wasReady : Bool)
      (gone : c.find? token = none) : Served c (.wait token timeout) (.ok wasReady) c
  | release (c : Cluster Q) (token : Token) : Served c (.release token) (.ok ()) (c.release token)

/-- A client in the middle of a protocol: what was said so far, and how the protocol goes on. -/
structure Thread (Q : Type) [Quantity Q] (α : Type) where
  said : List (Protocol.Exchange Q)
  rest : Protocol Q α

namespace Thread

variable {α : Type}

/-- The result, once the protocol is done. -/
def result? (t : Thread Q α) : Option α :=
  match t.rest with
  | .done result => some result
  | .ask _ _ => none

/-- A client goes on by itself until it is done or calls the scheduler. -/
inductive Settles : Thread Q α → Thread Q α → Prop where
  | done (said : List (Protocol.Exchange Q)) (result : α) : Settles ⟨said, .done result⟩ ⟨said, .done result⟩
  | calling (said : List (Protocol.Exchange Q)) (request : Request Q)
      (next : request.Answer → Protocol Q α) (calls : request.isLocal = false) :
    Settles ⟨said, .ask request next⟩ ⟨said, .ask request next⟩
  | goOn {said : List (Protocol.Exchange Q)} {request : Request Q}
      {next : request.Answer → Protocol Q α} {t : Thread Q α} (answer : request.Answer)
      (alone : request.isLocal = true)
      (later : Settles ⟨said ++ [⟨request, answer⟩], next answer⟩ t) :
    Settles ⟨said, .ask request next⟩ t

/-- One turn of a client: a call of the cluster and what follows by itself. -/
inductive Turn : Cluster Q → Thread Q α → Cluster Q → Thread Q α → Prop where
  | call {c c' : Cluster Q} {said : List (Protocol.Exchange Q)} {request : Request Q}
      {next : request.Answer → Protocol Q α} {answer : request.Answer} {t : Thread Q α}
      (served : Served c request answer c')
      (settled : Settles ⟨said ++ [⟨request, answer⟩], next answer⟩ t) :
    Turn c ⟨said, .ask request next⟩ c' t

end Thread

/-- The token that a call was answered with, if it was an accepted submission. -/
def Protocol.Exchange.granted? : Protocol.Exchange Q → Option Token
  | ⟨.submit _ _, answer⟩ => Except.toOption answer
  | _ => none

/-- An attempt to reserve. -/
structure Attempt (Q : Type) [Quantity Q] where
  spec : PlacementSpec Q
  thread : Thread Q (Except (Failure Q) (Handle Q))

namespace Attempt

/-- The token of the attempt, once it has submitted and was not refused. -/
def token? (a : Attempt Q) : Option Token := a.thread.said.findSome? Protocol.Exchange.granted?

/-- The handle that the attempt returned. -/
def handle? (a : Attempt Q) : Option (Handle Q) :=
  match a.thread.result? with
  | some (.ok handle) => some handle
  | _ => none

/-- The failure that the attempt ended in. -/
def failure? (a : Attempt Q) : Option (Failure Q) :=
  match a.thread.result? with
  | some (.error failure) => some failure
  | _ => none

/-- The token of an attempt that has submitted and is not finished. -/
def ongoing? (a : Attempt Q) : Option Token :=
  if a.thread.result?.isSome then none else a.token?

end Attempt

/-- The release of a handle. -/
structure Return (Q : Type) [Quantity Q] where
  handle : Handle Q
  thread : Thread Q Unit

/-- A cluster and its clients. -/
structure System (Q : Type) [Quantity Q] where
  cluster : Cluster Q
  attempts : List (Attempt Q)
  returns : List (Return Q)

namespace System

/-- Whether the handle of a token has been released. -/
def released (s : System Q) (token : Token) : Bool :=
  s.returns.any fun r => r.handle.token = token && r.thread.result?.isSome

/-- The tokens of the attempts that have submitted and not finished. -/
def ongoing (s : System Q) : List Token := s.attempts.filterMap Attempt.ongoing?

/-- The handles that were returned and not released. -/
def handles (s : System Q) : List (Handle Q) :=
  (s.attempts.filterMap Attempt.handle?).filter fun h => !s.released h.token

/-- What may happen next: an attempt begins or takes its turn, a release of a returned handle begins, any
number of times, or takes its turn, a node joins, or a node starts or stops draining. -/
inductive Step : System Q → System Q → Prop where
  | attempt (s : System Q) (spec : PlacementSpec Q) {t : Thread Q (Except (Failure Q) (Handle Q))}
      (settled : Thread.Settles ⟨[], reserve spec⟩ t) :
    Step s { s with attempts := s.attempts ++ [⟨spec, t⟩] }
  | attemptTurn {c c' : Cluster Q} (before after : List (Attempt Q)) {a : Attempt Q}
      {returns : List (Return Q)} {t : Thread Q (Except (Failure Q) (Handle Q))}
      (turn : a.thread.Turn c c' t) :
    Step ⟨c, before ++ a :: after, returns⟩ ⟨c', before ++ { a with thread := t } :: after, returns⟩
  | giveBack (s : System Q) {a : Attempt Q} {handle : Handle Q} {t : Thread Q Unit}
      (began : a ∈ s.attempts) (returned : a.handle? = some handle)
      (settled : Thread.Settles ⟨[], releaseHandle (some handle)⟩ t) :
    Step s { s with returns := s.returns ++ [⟨handle, t⟩] }
  | returnTurn {c c' : Cluster Q} {attempts : List (Attempt Q)} (before after : List (Return Q))
      {r : Return Q} {t : Thread Q Unit} (turn : r.thread.Turn c c' t) :
    Step ⟨c, attempts, before ++ r :: after⟩ ⟨c', attempts, before ++ { r with thread := t } :: after⟩
  | addNode (s : System Q) (id : String) (resources : Bundle Q) (draining : Bool) :
    Step s { s with cluster := s.cluster.apply (.addNode id resources draining) }
  | setDraining (s : System Q) (id : String) (draining : Bool) :
    Step s { s with cluster := s.cluster.apply (.setDraining id draining) }

/-- The states that clients can bring about who share a cluster that was just built. -/
inductive Reachable : System Q → Prop where
  | start {c : Cluster Q} (built : c.Built) : Reachable ⟨c, [], []⟩
  | step {s s' : System Q} (reached : Reachable s) (step : Step s s') : Reachable s'

end System

end ActorPlacement
