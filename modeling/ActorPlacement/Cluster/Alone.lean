import ActorPlacement.Cluster.Basic
import ActorPlacement.Protocol.Basic

/-!
# A cluster with one client

When nobody else uses a cluster, a reservation that is pending stays pending, so a wait for it ends
with its timeout. Time does not matter then, and nothing is put on record.
-/

namespace ActorPlacement

variable {Q : Type} [Quantity Q]

/-- What a client who waits for a token finds out at once: whether its reservation is ready, or that
there is none. -/
def Cluster.look (c : Cluster Q) (token : Token) : Except (SchedulerError Q) Bool :=
  match c.find? token with
  | some r => .ok r.ready
  | none => .error (.unknownReservation token)

/-- A cluster as the surroundings of a single client whose backend is running. -/
def Cluster.answerAlone : Protocol.Surroundings Q (Cluster Q)
  | .submit bundles strategy, c =>
    let (c, reply) := c.submit bundles strategy
    (reply.mapError SchedulerError.rejected, c)
  | .wait token _, c => (c.look token, c)
  | .release token, c => (.ok (), c.release token)
  | .record _, c => ((), c)
  | .clock, c => ((0 : Nat), c)
  | .backendUp, c => (true, c)
  | .nextActor, c => ((1 : Nat), c)

end ActorPlacement
