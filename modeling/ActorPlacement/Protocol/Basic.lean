import ActorPlacement.Protocol.Event

/-!
# Protocols with a scheduler and a backend

Reserving, resolving and constructing are written as protocols: what is asked of the surroundings,
and how to go on with each answer. The same protocol runs against a cluster, against a scripted
scheduler, on virtual time among other tasks, or against any answers at all (`Protocol.run`), and
what it asked is there to be counted.
-/

namespace ActorPlacement

/-- What a protocol may ask of its surroundings. -/
inductive Request (Q : Type) [Quantity Q] where
  /-- Ask the scheduler for a reservation. -/
  | submit (bundles : List (Bundle Q)) (strategy : Strategy)
  /-- Wait until a reservation is ready, so long at most. -/
  | wait (token : Token) (timeout : Duration)
  /-- Give a reservation back. -/
  | release (token : Token)
  /-- Put an event on record. -/
  | record (event : Event Q)
  /-- The time in milliseconds. -/
  | clock
  /-- Whether the backend is running. -/
  | backendUp
  /-- The number of a newly built actor. -/
  | nextActor

/-- What is answered to a request. -/
def Request.Answer {Q : Type} [Quantity Q] : Request Q → Type
  | submit _ _ => Except (SchedulerError Q) Token
  | wait _ _ => Except (SchedulerError Q) Bool
  | release _ => Except (SchedulerError Q) Unit
  | record _ => Unit
  | clock => Nat
  | backendUp => Bool
  | nextActor => Nat

/-- A sequence of requests that ends with a result. -/
inductive Protocol (Q : Type) [Quantity Q] (α : Type) where
  | done (result : α)
  | ask (request : Request Q) (next : request.Answer → Protocol Q α)

namespace Protocol

variable {Q : Type} [Quantity Q] {α β σ : Type}

/-- Go on with the result of a protocol. -/
def bind : Protocol Q α → (α → Protocol Q β) → Protocol Q β
  | done result, f => f result
  | ask request next, f => ask request fun answer => (next answer).bind f

instance : Monad (Protocol Q) where
  pure := done
  bind := bind

/-- Ask for a reservation. -/
def submit (bundles : List (Bundle Q)) (strategy : Strategy) :
    Protocol Q (Except (SchedulerError Q) Token) :=
  ask (.submit bundles strategy) done

/-- Wait for a reservation. -/
def wait (token : Token) (timeout : Duration) : Protocol Q (Except (SchedulerError Q) Bool) :=
  ask (.wait token timeout) done

/-- Give a reservation back. -/
def release (token : Token) : Protocol Q (Except (SchedulerError Q) Unit) := ask (.release token) done

/-- Put an event on record. -/
def record (event : Event Q) : Protocol Q Unit := ask (.record event) done

/-- Read the time in milliseconds. -/
def clock : Protocol Q Nat := ask .clock done

/-- See whether the backend is running. -/
def backendUp : Protocol Q Bool := ask .backendUp done

/-- Take the number of a newly built actor. -/
def nextActor : Protocol Q Nat := ask .nextActor done

/-- A request and its answer. -/
abbrev Exchange (Q : Type) [Quantity Q] := (r : Request Q) × r.Answer

/-- Surroundings with a state of their own that answer every request. -/
abbrev Surroundings (Q : Type) [Quantity Q] (σ : Type) := (r : Request Q) → σ → r.Answer × σ

/-- A finished run: the result, the state that the surroundings are left in, and what was said. -/
structure Finished (Q : Type) [Quantity Q] (σ α : Type) where
  result : α
  state : σ
  exchanges : List (Exchange Q)

/-- Run a protocol to its end. -/
def run (answer : Surroundings Q σ) : Protocol Q α → σ → Finished Q σ α
  | done result, state => ⟨result, state, []⟩
  | ask r next, state =>
    let (reply, state) := answer r state
    let rest := (next reply).run answer state
    { rest with exchanges := ⟨r, reply⟩ :: rest.exchanges }

end Protocol

end ActorPlacement
