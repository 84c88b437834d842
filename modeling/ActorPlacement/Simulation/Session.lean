import ActorPlacement.Protocol.DryRun
import ActorPlacement.Simulation.Trial
import ActorPlacement.Simulation.World

/-!
# Sessions

A session is a sequence of steps on one world, with names for the handles and actors that its steps
make. After every step the tasks in the background run as far as they can without time passing, and a
`Report` tells what the step answered, which tasks ended, how things stand and what was put on record.
-/

namespace ActorPlacement

/-- One step of a session. -/
inductive Step (Q : Type) [Quantity Q] where
  | addNode (node : Node Q)
  | setDraining (id : String) (draining : Bool)
  | free (id : String)
  | assignment (token : Token)
  | submit (bundles : List (Bundle Q)) (strategy : Strategy)
  | wait (token : Token) (timeout : Duration)
  | releaseToken (token : Token)
  /-- Reserve, and name the handle. -/
  | reserve (spec : Except (SpecFault Q) (PlacementSpec Q)) (save : Option String)
  | release (handle : Option (Handle Q))
  | spawnReserve (task : String) (spec : PlacementSpec Q)
  | spawnWait (task : String) (token : Token) (timeout : Duration)
  | advance (span : Duration)
  /-- Resolve options under assignments and values, and name the handle that they carry. -/
  | resolve (cls : ActorClass Q) (sets : List String) (values : List (String × OptionValue Q))
      (tracked : Bool) (save : Option String)
  /-- Construct an actor under assignments and values, and name it and its handle. -/
  | construct (type : ActorType Q TrialActor) (sets : List String)
      (values : List (String × OptionValue Q)) (save : Option String)
  | releaseActor (name : String)
  | materialize (type : ActorType Q TrialActor) (params : LaunchParams Q)
  | backend (up : Bool)
  /-- Resolve a class of a configuration, if the configuration could be read. -/
  | dryRun (config : Option (Config Q)) (cls : String) (sets : List String)

/-- What a step answers. -/
inductive Reply (Q : Type) [Quantity Q] where
  | nothing
  | succeeded
  | flag (value : Bool)
  | bundle (bundle : Bundle Q)
  | nodes (ids : List String)
  | token (token : Token)
  | handle (handle : Handle Q)
  | resolved (resolved : Resolved Q) (tracked : Bool)
  | actor (built : BuiltActor Q TrialActor)
  | params (values : NameMap (Tree Q))
  | up (value : Bool)
  | failed (failure : Failure Q)
  | schedulerFailed (error : SchedulerError Q)
  | dryRunFailed (failure : DryRunFailure Q)
  | malformed

/-- How the scheduler and the backend stand. -/
inductive Standing (Q : Type) where
  | cluster (free : List (String × Bundle Q)) (placed : List (Token × List String)) (pending live : Nat)
  | script (submits : Nat) (released : List Token)

/-- What a step and the tasks after it came to. -/
structure Report (Q : Type) [Quantity Q] where
  /-- The step's answer; the first report is made before any step. -/
  reply : Option (Reply Q)
  finished : List (String × TaskResult Q)
  standing : Standing Q
  actors : Nat
  events : List (Event Q)

/-- The standing of a scheduler. -/
def Scheduler.standing {Q : Type} : Scheduler Q → Standing Q
  | cluster c =>
    .cluster (c.nodes.map fun n => (n.id, n.free))
      (c.reservations.filterMap fun r => (c.assignment? r.token).map fun ids => (r.token, ids))
      c.pending.length c.reservations.length
  | script s => .script s.submits s.released

/-- Whether a task reserved. -/
def TaskResult.isReserved {Q : Type} [Quantity Q] : TaskResult Q → Bool
  | reserved _ => true
  | waited _ => false

/-- Items in ascending order of their names. -/
def byName {α : Type} (items : List (String × α)) : List (String × α) :=
  items.mergeSort fun a b => a.1 ≤ b.1

/-- A world and the names that its steps gave. -/
structure Session (Q : Type) [Quantity Q] where
  world : World Q
  handles : NameMap (Handle Q) := NameMap.empty
  actors : NameMap (BuiltActor Q TrialActor) := NameMap.empty

namespace Session

variable {Q : Type}

section Names

variable [Quantity Q]

/-- Name a handle, if there are both. -/
def saveHandle (s : Session Q) (name : Option String) (handle : Option (Handle Q)) : Session Q :=
  match name, handle with
  | some name, some handle => { s with handles := s.handles.insert name handle }
  | _, _ => s

/-- Name an actor and its handle. -/
def saveActor (s : Session Q) (name : Option String) (built : BuiltActor Q TrialActor) : Session Q :=
  match name with
  | some label =>
    { s with actors := s.actors.insert label built }.saveHandle name built.params.placementGroup
  | none => s

/-- Run a protocol in the foreground. -/
def run {α : Type} (s : Session Q) (protocol : Protocol Q α) : α × Session Q :=
  let (result, world) := s.world.run protocol
  (result, { s with world })

/-- Change the cluster, if there is one. -/
def onCluster {α : Type} (s : Session Q) (f : Cluster Q → Cluster Q × α) : Option α × Session Q :=
  let (answer, world) := s.world.onCluster f
  (answer, { s with world })

/-- Ask the cluster, if there is one. -/
def ask? {α : Type} (s : Session Q) (f : Cluster Q → Option α) : Option α :=
  s.world.scheduler.cluster?.bind f

/-- Construct an actor and name it. -/
def construct (s : Session Q) (type : ActorType Q TrialActor) (overrides : Overrides Q)
    (save : Option String) : Reply Q × Session Q :=
  match s.run (ActorPlacement.construct type overrides) with
  | (.ok built, s) => (.actor built, s.saveActor save built)
  | (.error failure, s) => (.failed failure, s)

/-- Resolve options and name the handle that they carry. -/
def resolve (s : Session Q) (cls : ActorClass Q) (overrides : Overrides Q) (tracked : Bool)
    (save : Option String) : Reply Q × Session Q :=
  match s.run (ActorPlacement.resolve cls overrides) with
  | (.ok resolved, s) => (.resolved resolved tracked, s.saveHandle save resolved.options.placementGroup)
  | (.error failure, s) => (.failed failure, s)

/-- Reserve and name the handle. -/
def reserve (s : Session Q) (spec : PlacementSpec Q) (save : Option String) : Reply Q × Session Q :=
  match s.run (ActorPlacement.reserve spec) with
  | (.ok handle, s) => (.handle handle, s.saveHandle save (some handle))
  | (.error failure, s) => (.failed failure, s)

/-- Tell what happened since the last report; what is told is not told again. -/
def report (s : Session Q) (reply : Option (Reply Q)) : Report Q × Session Q :=
  let ended := s.world.finished
  let finished :=
    byName (ended.filter fun t => t.2.isReserved) ++ byName (ended.filter fun t => !t.2.isReserved)
  let report :=
    { reply, finished, standing := s.world.scheduler.standing, actors := s.world.actors
      events := s.world.events }
  (report, { s with world := { s.world with events := [], finished := [] } })

/-- The names of the tasks that have not ended: those that reserve, then those that wait. -/
def unfinished (s : Session Q) : List String :=
  let namesOf (kind : TaskKind) : List String :=
    (byName ((s.world.waiting.filter fun t => t.kind == kind).map fun t => (t.name, t.kind))).map Prod.fst
  namesOf .reserving ++ namesOf .waiting

/-- Let tasks run, and name the handles that they made by their tasks. -/
def settle (s : Session Q) : Session Q :=
  let world := s.world.settle
  world.finished.foldl (fun s t =>
    match t.2 with
    | .reserved (.ok handle) => s.saveHandle (some t.1) (some handle)
    | _ => s) { s with world }

end Names

variable [WrittenQuantity Q]

/-- The overrides that assignments and then values make. -/
def overridesOf (sets : List String) (values : List (String × OptionValue Q)) :
    Except (BadOption Q) (Overrides Q) :=
  (Overrides.assignAll NameMap.empty sets).map fun overrides =>
    values.foldl (fun overrides e => overrides.insert e.1 e.2) overrides

/-- Take a step in the foreground. -/
def take (s : Session Q) : Step Q → Reply Q × Session Q
  | .addNode node =>
    let (answer, s) := s.onCluster fun c => c.addNode node
    (.flag (answer.getD false), s)
  | .setDraining id draining =>
    let (answer, s) := s.onCluster fun c => c.setDraining id draining
    (.flag (answer.getD false), s)
  | .free id => ((s.ask? fun c => c.freeOn? id).elim .nothing .bundle, s)
  | .assignment token => ((s.ask? fun c => c.assignment? token).elim .nothing .nodes, s)
  | .submit bundles strategy =>
    match s.run (Protocol.submit bundles strategy) with
    | (.ok token, s) => (.token token, s)
    | (.error error, s) => (.schedulerFailed error, s)
  | .wait token timeout =>
    match s.run (Protocol.wait token timeout) with
    | (.ok ready, s) => (.flag ready, s)
    | (.error error, s) => (.schedulerFailed error, s)
  | .releaseToken token =>
    match s.run (Protocol.release token) with
    | (.ok (), s) => (.succeeded, s)
    | (.error error, s) => (.schedulerFailed error, s)
  | .reserve spec save =>
    match spec with
    | .ok spec => s.reserve spec save
    | .error fault => (.failed (.spec fault), s)
  | .release handle => (.nothing, (s.run (releaseHandle handle)).2)
  | .spawnReserve task spec => (.nothing, { s with world := s.world.spawnReserve task spec })
  | .spawnWait task token timeout =>
    (.nothing, { s with world := s.world.spawnWait task token timeout })
  | .advance span => (.nothing, { s with world := s.world.sleep span })
  | .resolve cls sets values tracked save =>
    match overridesOf sets values with
    | .ok overrides => s.resolve cls overrides tracked save
    | .error bad => (.failed (.option bad), s)
  | .construct type sets values save =>
    match overridesOf sets values with
    | .ok overrides => s.construct type overrides save
    | .error bad => (.failed (.option bad), s)
  | .releaseActor name =>
    match s.actors.find? name with
    | some built => (.nothing, (s.run (releaseActor built)).2)
    | none => (.nothing, s)
  | .materialize type params =>
    match s.run (ActorPlacement.materialize type params) with
    | (.ok built, s) => (.actor built, s)
    | (.error failure, s) => (.failed failure, s)
  | .backend up => (.up up, { s with world := { s.world with backendUp := up } })
  | .dryRun config cls sets =>
    match config with
    | none => (.malformed, s)
    | some config =>
      match s.run (ActorPlacement.dryRun config cls sets) with
      | (.ok values, s) => (.params values, s)
      | (.error failure, s) => (.dryRunFailed failure, s)

/-- Take a step, let tasks run, and report. -/
def step (s : Session Q) (step : Step Q) : Report Q × Session Q :=
  let (reply, s) := s.take step
  s.settle.report (some reply)

end Session

end ActorPlacement
