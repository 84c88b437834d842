import ActorPlacement.Protocol.Reserve
import ActorPlacement.Simulation.Scheduler

/-!
# Tasks on virtual time

A `World` is a scheduler, a backend, a clock that counts milliseconds, and tasks in the background.
One foreground protocol runs at a time. It runs on until it has to wait; then the tasks that have been
woken run, in the order in which they were woken, and when none is left the clock jumps to the next
deadline. At a deadline the foreground goes on first, then the tasks in the order in which they began
to wait.

A task that waits for a reservation is woken with "ready" as soon as the reservation is placed, also
when its deadline passed at the same moment and it has not run since.
-/

namespace ActorPlacement

/-- What a waiting protocol waits for. -/
structure Pause where
  /-- When the wait ends at the latest. -/
  deadline : Nat
  /-- The token of the reservation that is watched meanwhile. -/
  token : Option Token
  /-- The answer once the deadline has passed. -/
  late : Bool

/-- What a task in the background comes to. -/
inductive TaskResult (Q : Type) [Quantity Q] where
  | reserved (result : Except (Failure Q) (Handle Q))
  | waited (result : Except (SchedulerError Q) Bool)

/-- The two kinds of tasks. -/
inductive TaskKind where
  | reserving
  | waiting
  deriving DecidableEq, Repr

/-- A task that waits. -/
structure Waiter (Q : Type) [Quantity Q] where
  name : String
  kind : TaskKind
  pause : Pause
  resume : Except (SchedulerError Q) Bool → Protocol Q (TaskResult Q)

/-- The protocol in the foreground: it runs, it waits, or its wait has been answered. -/
inductive Foreground where
  | running
  | waiting (pause : Pause)
  | answered (answer : Bool)

/-- A scheduler, a backend, a clock, and tasks in the background. -/
structure World (Q : Type) [Quantity Q] where
  scheduler : Scheduler Q
  backendUp : Bool
  /-- Milliseconds since the start. -/
  now : Nat := 0
  /-- How many actors have been built. -/
  actors : Nat := 0
  /-- What has been put on record, in order. -/
  events : List (Event Q) := []
  foreground : Foreground := .running
  /-- Tasks that wait, in the order in which they began to. -/
  waiting : List (Waiter Q) := []
  /-- Tasks whose wait has been answered and that have not run since. -/
  woken : List (Waiter Q × Bool) := []
  /-- Tasks that came to an end, with their results. -/
  finished : List (String × TaskResult Q) := []

/-- How long the clock may run when a deadline lies beyond all instants: thirty years of 365 days. -/
def farAway : Nat := 86400 * 365 * 30 * 1000

/-- The deadline that lies a span of time after `now`: a part of a millisecond counts as a whole one. -/
def deadlineAfter (now : Nat) (span : Duration) : Nat :=
  if span.seconds < UInt64.size / 2 then now + span.millisRoundedUp else now + farAway

namespace Waiter

variable {Q : Type} [Quantity Q]

/-- Whether the task watches a token. -/
def watches (w : Waiter Q) (token : Token) : Bool := w.pause.token == some token

end Waiter

/-- Answer the wait of the foreground if it is for something. -/
def Foreground.answerIf (wanted : Pause → Bool) (answer : Pause → Bool) : Foreground → Foreground
  | waiting pause => if wanted pause then .answered (answer pause) else .waiting pause
  | other => other

/-- The deadline of the foreground, if it waits. -/
def Foreground.deadline? : Foreground → Option Nat
  | waiting pause => some pause.deadline
  | _ => none

/-- What becomes of a protocol that runs for a while. -/
inductive Progress (Q : Type) [Quantity Q] (α : Type) where
  | finished (result : α)
  | paused (pause : Pause) (next : Except (SchedulerError Q) Bool → Protocol Q α)

namespace World

variable {Q : Type} [Quantity Q] {α : Type}

/-- A world before anything has happened. -/
def start (scheduler : Scheduler Q) (backendUp : Bool) : World Q := { scheduler, backendUp }

/-- Wake everything that waits for `wanted`. -/
def wake (w : World Q) (wanted : Pause → Bool) (answer : Pause → Bool) : World Q :=
  { w with
    foreground := w.foreground.answerIf wanted answer
    woken := w.woken ++ (w.waiting.filter fun t => wanted t.pause).map fun t => (t, answer t.pause)
    waiting := w.waiting.filter fun t => !wanted t.pause }

/-- Tell those who wait for a token that its reservation is ready. -/
def wakeReady (w : World Q) (token : Token) : World Q :=
  let watched (pause : Pause) : Bool := pause.token == some token
  let woken := w.woken.map fun t => if t.1.watches token then (t.1, true) else t
  { w with woken }.wake watched fun _ => true

/-- Tell those who wait for a reservation that is gone that it will not become ready. -/
def wakeLost (w : World Q) : World Q :=
  w.wake (fun pause => (pause.token.map w.scheduler.hasLost).getD false) fun _ => false

/-- Put a changed scheduler in place and wake those whom the change concerns. -/
def withScheduler (w : World Q) (after : Scheduler Q) : World Q :=
  let changed := { w with scheduler := after }
  ((w.scheduler.newlyReady after).foldl wakeReady changed).wakeLost

/-- What a wait for a token comes to: an answer, or a pause. -/
def beginWait (w : World Q) (token : Token) (timeout : Duration) :
    Except (SchedulerError Q) Bool ⊕ Pause :=
  let pauseOrAnswer (span : Duration) (token : Option Token) (late : Bool) :
      Except (SchedulerError Q) Bool ⊕ Pause :=
    let deadline := deadlineAfter w.now span
    if deadline ≤ w.now then .inl (.ok late) else .inr { deadline, token, late }
  match w.scheduler.outlook token timeout with
  | .settled answer => .inl answer
  | .watch span => pauseOrAnswer span (some token) false
  | .later span answer => pauseOrAnswer span none answer

/-- Submit a reservation. -/
def submit (w : World Q) (bundles : List (Bundle Q)) (strategy : Strategy) :
    Except (SchedulerError Q) Token × World Q :=
  let (scheduler, reply) := w.scheduler.submit bundles strategy
  (reply, w.withScheduler scheduler)

/-- Release a reservation. -/
def release (w : World Q) (token : Token) : Except (SchedulerError Q) Unit × World Q :=
  let (scheduler, reply) := w.scheduler.release token
  (reply, w.withScheduler scheduler)

/-- Answer a request while no time passes; a wait that would take time is over at once. -/
def answerNow (w : World Q) : (r : Request Q) → r.Answer × World Q
  | .submit bundles strategy => w.submit bundles strategy
  | .wait token timeout =>
    match w.beginWait token timeout with
    | .inl reply => (reply, w)
    | .inr pause => (.ok pause.late, w)
  | .release token => w.release token
  | .record event => ((), { w with events := w.events ++ [event] })
  | .clock => (w.now, w)
  | .backendUp => (w.backendUp, w)
  | .nextActor => (w.actors + 1, { w with actors := w.actors + 1 })

/-- Run a protocol to its end or to its first wait that is not answered at once. -/
def advance : Protocol Q α → World Q → Progress Q α × World Q
  | .done result, w => (.finished result, w)
  | .ask (.wait token timeout) next, w =>
    match w.beginWait token timeout with
    | .inl reply => advance (next reply) w
    | .inr pause => (.paused pause next, w)
  | .ask request next, w =>
    let (reply, w) := w.answerNow request
    advance (next reply) w

/-- Run a task on, and keep its result or wait for what it waits for. -/
def runTask (w : World Q) (name : String) (kind : TaskKind) (task : Protocol Q (TaskResult Q)) : World Q :=
  match advance task w with
  | (.finished result, w) => { w with finished := w.finished ++ [(name, result)] }
  | (.paused pause resume, w) => { w with waiting := w.waiting ++ [{ name, kind, pause, resume }] }

/-- Run woken tasks, at most so many. -/
def settleWithin : Nat → World Q → World Q
  | 0, w => w
  | fuel + 1, w =>
    match w.woken with
    | [] => w
    | (task, answer) :: woken =>
      settleWithin fuel ({ w with woken }.runTask task.name task.kind (task.resume (.ok answer)))

/-- Run woken tasks until none is left. No task waits twice, so each one there is runs once at most. -/
def settle (w : World Q) : World Q := settleWithin (w.waiting.length + w.woken.length) w

/-- The next deadline. -/
def nextDeadline? (w : World Q) : Option Nat :=
  (w.foreground.deadline?.toList ++ w.waiting.map fun t => t.pause.deadline).min?

/-- Move the clock to the next deadline and wake everything that is due. -/
def jump (w : World Q) : World Q :=
  match w.nextDeadline? with
  | none => w
  | some deadline => { w with now := deadline }.wake (fun pause => pause.deadline ≤ deadline) Pause.late

/-- Let tasks run and time pass until the foreground's wait has been answered, with so many jumps of the
clock at most. -/
def blockWithin : Nat → World Q → Bool × World Q
  | 0, w => (false, w)
  | fuel + 1, w =>
    let w := w.settle
    match w.foreground with
    | .answered answer => (answer, w)
    | _ =>
      let w := w.jump
      match w.foreground with
      | .answered answer => (answer, w)
      | _ => blockWithin fuel w

/-- Let tasks run and time pass until a pause of the foreground is over. Every jump of the clock wakes a
task or the foreground. -/
def block (w : World Q) (pause : Pause) : Bool × World Q :=
  let (answer, w) := blockWithin (w.waiting.length + 1) { w with foreground := .waiting pause }
  (answer, { w with foreground := .running })

/-- Answer a request of the foreground; tasks run and time passes while it waits. -/
def answer : Protocol.Surroundings Q (World Q)
  | .wait token timeout, w =>
    match w.beginWait token timeout with
    | .inl reply => (reply, w)
    | .inr pause =>
      let (answer, w) := w.block pause
      (.ok answer, w)
  | request, w => w.answerNow request

/-- Run a protocol in the foreground to its end. -/
def run (w : World Q) (protocol : Protocol Q α) : α × World Q :=
  let finished := protocol.run answer w
  (finished.result, finished.state)

/-- Let a span of time pass. -/
def sleep (w : World Q) (span : Duration) : World Q :=
  let deadline := deadlineAfter w.now span
  if deadline ≤ w.now then w else (w.block { deadline, token := none, late := true }).2

/-- Change the cluster and wake those whom the change concerns; a script has no cluster to change. -/
def onCluster (w : World Q) (f : Cluster Q → Cluster Q × α) : Option α × World Q :=
  let (scheduler, answer) := w.scheduler.onCluster f
  (answer, w.withScheduler scheduler)

/-- Reserve in the background. -/
def spawnReserve (w : World Q) (name : String) (spec : PlacementSpec Q) : World Q :=
  w.runTask name .reserving do return .reserved (← reserve spec)

/-- Wait for a token in the background. -/
def spawnWait (w : World Q) (name : String) (token : Token) (timeout : Duration) : World Q :=
  w.runTask name .waiting do return .waited (← Protocol.wait token timeout)

end World

end ActorPlacement
