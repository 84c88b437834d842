import ActorPlacement.Cluster.Alone

/-!
# Schedulers of a simulation

A simulation runs either on a cluster or on a script, which says for every submission how the
scheduler behaves around it. Neither waits by itself: `Scheduler.outlook` tells what a waiting client
has to wait for, and time is kept elsewhere.
-/

namespace ActorPlacement

/-- What a scripted scheduler does about one submission. -/
structure Behavior (Q : Type) where
  reject : Option (SchedulerError Q) := none
  waitError : Option (SchedulerError Q) := none
  /-- How long the reservation takes to become ready; it never does if this is unset. -/
  readyAfter : Option Duration := none
  releaseError : Option (SchedulerError Q) := none

/-- A scheduler that follows a script, and what it was asked so far. -/
structure Script (Q : Type) where
  behaviors : List (Behavior Q)
  submits : Nat := 0
  /-- The tokens whose release was asked for, in order, those that failed included. -/
  released : List Token := []

namespace Script

variable {Q : Type}

/-- What the script says about the submission with a number, counted from one. Its last entry stands
for all later submissions. -/
def behavior (s : Script Q) (n : Nat) : Behavior Q :=
  ((s.behaviors[n - 1]?) <|> s.behaviors.getLast?).getD {}

/-- What stands before the number in a script's token. -/
def tokenHead : String := "stub-"

/-- The token of the submission with a number. -/
def token (n : Nat) : Token := ⟨tokenHead ++ toString n⟩

/-- What the script says about a token; tokens of another form are unknown to it. -/
def behavior? (s : Script Q) (token : Token) : Option (Behavior Q) :=
  if tokenHead.toList.isPrefixOf token.text.toList then
    match wordOfText? 64 (String.ofList (token.text.toList.drop tokenHead.length)) with
    | some n => if 0 < n then some (s.behavior n) else none
    | none => none
  else none

/-- Submit a reservation. -/
def submit (s : Script Q) : Script Q × Except (SchedulerError Q) Token :=
  let n := s.submits + 1
  let counted := { s with submits := n }
  match (s.behavior n).reject with
  | some error => (counted, .error error)
  | none => (counted, .ok (token n))

/-- Release a reservation. -/
def release (s : Script Q) (token : Token) : Script Q × Except (SchedulerError Q) Unit :=
  let noted := { s with released := s.released ++ [token] }
  match (s.behavior? token).bind Behavior.releaseError with
  | some error => (noted, .error error)
  | none => (noted, .ok ())

end Script

/-- What a client who waits for a token has to wait for. -/
inductive Outlook (Q : Type) where
  /-- For nothing. -/
  | settled (answer : Except (SchedulerError Q) Bool)
  /-- For the reservation to become ready or to vanish, so long at most. -/
  | watch (atMost : Duration)
  /-- For some time, after which the answer is known. -/
  | later (after : Duration) (answer : Bool)

/-- A scheduler of a simulation. -/
inductive Scheduler (Q : Type) where
  | cluster (cluster : Cluster Q)
  | script (script : Script Q)

namespace Scheduler

variable {Q : Type} [Quantity Q]

/-- Submit a reservation. -/
def submit (s : Scheduler Q) (bundles : List (Bundle Q)) (strategy : Strategy) :
    Scheduler Q × Except (SchedulerError Q) Token :=
  match s with
  | cluster c =>
    let (c, reply) := c.submit bundles strategy
    (.cluster c, reply.mapError SchedulerError.rejected)
  | script s =>
    let (s, reply) := s.submit
    (.script s, reply)

/-- Release a reservation. -/
def release (s : Scheduler Q) (token : Token) : Scheduler Q × Except (SchedulerError Q) Unit :=
  match s with
  | cluster c => (.cluster (c.release token), .ok ())
  | script s =>
    let (s, reply) := s.release token
    (.script s, reply)

/-- What a client has to wait for who waits for a token, so long at most. -/
def outlook (s : Scheduler Q) (token : Token) (timeout : Duration) : Outlook Q :=
  match s with
  | cluster c =>
    match c.look token with
    | .ok false => .watch timeout
    | answer => .settled answer
  | script s =>
    match s.behavior? token with
    | none => .settled (.error (.unknownReservation token))
    | some behavior =>
      match behavior.waitError, behavior.readyAfter with
      | some error, _ => .settled (.error error)
      | none, some after => if after.nanos ≤ timeout.nanos then .later after true else .later timeout false
      | none, none => .later timeout false

/-- Change the cluster; a script has none. -/
def onCluster {α : Type} (s : Scheduler Q) (f : Cluster Q → Cluster Q × α) : Scheduler Q × Option α :=
  match s with
  | cluster c =>
    let (c, answer) := f c
    (.cluster c, some answer)
  | script s => (.script s, none)

/-- The cluster, unless the scheduler follows a script. -/
def cluster? : Scheduler Q → Option (Cluster Q)
  | cluster c => some c
  | script _ => none

/-- The tokens that a change made ready, in the order in which they were pending. -/
def newlyReady (before after : Scheduler Q) : List Token :=
  match before, after with
  | cluster b, cluster a => b.newlyReady a
  | _, _ => []

/-- Whether a token has no live reservation in a cluster. -/
def hasLost (s : Scheduler Q) (token : Token) : Bool :=
  match s with
  | cluster c => (c.find? token).isNone
  | script _ => false

end Scheduler

end ActorPlacement
