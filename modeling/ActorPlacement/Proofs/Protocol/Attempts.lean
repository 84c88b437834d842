import ActorPlacement.Proofs.Protocol.Dialogue
import ActorPlacement.Proofs.Protocol.Phases

/-!
# What attempts to reserve say

`Attempting` lists all that an attempt says, whatever it is answered, with what it then answers itself. What
is asked of the scheduler alone is a `Transcript`: one submission, at most one wait, for the token that was
granted, and one release of that token just if the wait is not answered with success. Attempts that follow
each other keep to this each on its own (`InTurn`), and the log calls a reservation released exactly when the
scheduler took it back.
-/

namespace ActorPlacement

namespace Protocol

variable {Q : Type} [Quantity Q] {α ι : Type}

/-- Perform the protocol of every item, one after the other, whatever comes of each. -/
def inTurn (p : ι → Protocol Q α) : List ι → Protocol Q (List α)
  | [] => .done []
  | i :: rest => (p i).bind fun result => (inTurn p rest).bind fun results => .done (result :: results)

/-- All that is said falls into one part for every item, and each part and its result are as `P` says. -/
inductive InTurn (P : ι → List (Exchange Q) → α → Prop) : List ι → List (Exchange Q) → List α → Prop where
  | nil : InTurn P [] [] []
  | cons {i : ι} {said : List (Exchange Q)} {result : α} {rest : List ι} {more : List (Exchange Q)}
      {results : List α} (first : P i said result) (others : InTurn P rest more results) :
    InTurn P (i :: rest) (said ++ more) (result :: results)

theorem inTurn_ensures {p : ι → Protocol Q α} {P : ι → List (Exchange Q) → α → Prop}
    (h : ∀ i, (p i).Ensures (P i)) (items : List ι) : (inTurn p items).Ensures (InTurn P items) := by
  induction items with
  | nil => exact .nil
  | cons i rest ih =>
    refine Ensures.bind ((h i).mono fun said result hfirst => ?_)
    refine Ensures.bind (ih.mono fun more results hothers => ?_)
    show InTurn P (i :: rest) (said ++ (more ++ [])) (result :: results)
    rw [List.append_nil]
    exact .cons hfirst hothers

/-- What every part says alike of two readings, all of it does. -/
theorem InTurn.filterMap_eq {β : Type} {P : ι → List (Exchange Q) → α → Prop} {f g : Exchange Q → Option β}
    (hP : ∀ i said result, P i said result → said.filterMap f = said.filterMap g) {items : List ι}
    {said : List (Exchange Q)} {results : List α} (h : InTurn P items said results) :
    said.filterMap f = said.filterMap g := by
  induction h with
  | nil => rfl
  | cons first others ih => rw [List.filterMap_append, List.filterMap_append, hP _ _ _ first, ih]

/-- Whether the scheduler was asked. -/
def Exchange.isCall (x : Exchange Q) : Bool := !x.1.isLocal

/-- The token that the scheduler took back. -/
def Exchange.takenBack? : Exchange Q → Option Token
  | ⟨.release token, answer⟩ => (Except.toOption answer).map fun _ => token
  | _ => none

end Protocol

open Protocol

section Said

variable {Q : Type} [Quantity Q] {spec : PlacementSpec Q} {said : List (Exchange Q)}
  {result : Except (Failure Q) (Handle Q)}

/-- How a release was answered goes on record. -/
def givingBack (token : Token) (stage : Stage) : Except (SchedulerError Q) Unit → List (Exchange Q)
  | .ok () => [⟨.release token, .ok ()⟩, ⟨.record (.released token), ()⟩]
  | .error error => [⟨.release token, .error error⟩, ⟨.record (.releaseFailed token stage error), ()⟩]

/-- What is said up to the wait for a token that was granted. -/
def opening (spec : PlacementSpec Q) (token : Token) (started : Nat) : List (Exchange Q) :=
  [⟨.submit spec.bundles spec.strategy, .ok token⟩, ⟨.record (.requested token spec), ()⟩, ⟨.clock, started⟩]

/-- All that an attempt to reserve may say, and what it answers. -/
inductive Attempting (spec : PlacementSpec Q) :
    List (Exchange Q) → Except (Failure Q) (Handle Q) → Prop where
  | refused (error : SchedulerError Q) :
    Attempting spec [⟨.submit spec.bundles spec.strategy, .error error⟩, ⟨.record (.refused spec error), ()⟩]
      (.error (.notReady spec.timeout (.refused error)))
  | ready (token : Token) (started finished : Nat) :
    Attempting spec
      (opening spec token started ++ [⟨.wait token spec.timeout, .ok true⟩, ⟨.clock, finished⟩,
        ⟨.record (.ready token spec (finished - started)), ()⟩])
      (.ok ⟨token, spec⟩)
  | late (token : Token) (started : Nat) (answer : Except (SchedulerError Q) Unit) :
    Attempting spec
      (opening spec token started ++ [⟨.wait token spec.timeout, .ok false⟩,
        ⟨.record (.timedOut token spec), ()⟩] ++ givingBack token .timedOut answer)
      (.error (.notReady spec.timeout .timedOut))
  | failed (token : Token) (started : Nat) (error : SchedulerError Q)
      (answer : Except (SchedulerError Q) Unit) :
    Attempting spec
      (opening spec token started ++ [⟨.wait token spec.timeout, .error error⟩,
        ⟨.record (.waitFailed token error), ()⟩] ++ givingBack token .timedOut answer)
      (.error (.scheduler error))

theorem releaseToken_givingBack (token : Token) (stage : Stage) :
    (releaseToken token stage : Protocol Q Unit).Ensures fun said _ =>
      ∃ answer, said = givingBack token stage answer := by
  intro answer
  cases answer with
  | ok taken => exact fun _ => ⟨.ok taken, rfl⟩
  | error error => exact fun _ => ⟨.error error, rfl⟩

/-- An attempt that gives up has given its reservation back, however that was answered. -/
theorem giveUp_givingBack (token : Token) (failure : Failure Q) :
    (giveUp token failure).Ensures fun said result =>
      result = .error failure ∧ ∃ answer, said = givingBack token .timedOut answer := by
  refine Ensures.bind ((releaseToken_givingBack token .timedOut).mono ?_)
  rintro said _ ⟨answer, rfl⟩
  exact ⟨rfl, answer, List.append_nil _⟩

theorem reserve_attempting (spec : PlacementSpec Q) : (reserve spec).Ensures (Attempting spec) := by
  rw [reserve_eq]
  intro answer
  rcases answer with error | token
  · exact fun _ => .refused error
  · intro _ started answer
    rcases answer with error | placed
    · refine fun _ => (giveUp_givingBack token _).mono ?_
      rintro said _ ⟨rfl, answer, rfl⟩
      exact .failed token started error answer
    · cases placed with
      | true => exact fun finished _ => .ready token started finished
      | false =>
        refine fun _ => (giveUp_givingBack token _).mono ?_
        rintro said _ ⟨rfl, answer, rfl⟩
        exact .late token started answer

end Said

/-! ## What the scheduler is asked, and what the log says -/

section Log

variable {Q : Type} [WrittenQuantity Q] {σ : Type} {spec : PlacementSpec Q} {said : List (Exchange Q)}
  {result : Except (Failure Q) (Handle Q)}

/-- The calls of the scheduler that an attempt makes, each with its answer, and what it answers itself. -/
inductive Transcript (spec : PlacementSpec Q) :
    List (Exchange Q) → Except (Failure Q) (Handle Q) → Prop where
  | refused (error : SchedulerError Q) (reason : NotReady Q)
      (told : reason.message spec.timeout = error.message) :
    Transcript spec [⟨.submit spec.bundles spec.strategy, .error error⟩]
      (.error (.notReady spec.timeout reason))
  | ready (token : Token) :
    Transcript spec
      [⟨.submit spec.bundles spec.strategy, .ok token⟩, ⟨.wait token spec.timeout, .ok true⟩]
      (.ok ⟨token, spec⟩)
  | late (token : Token) (answer : Except (SchedulerError Q) Unit) :
    Transcript spec
      [⟨.submit spec.bundles spec.strategy, .ok token⟩, ⟨.wait token spec.timeout, .ok false⟩,
        ⟨.release token, answer⟩]
      (.error (.notReady spec.timeout .timedOut))
  | failed (token : Token) (error : SchedulerError Q) (answer : Except (SchedulerError Q) Unit) :
    Transcript spec
      [⟨.submit spec.bundles spec.strategy, .ok token⟩, ⟨.wait token spec.timeout, .error error⟩,
        ⟨.release token, answer⟩]
      (.error (.scheduler error))

/-- The token that the log calls released. -/
def Protocol.Exchange.loggedReleased? : Exchange Q → Option Token
  | ⟨.record event, _⟩ =>
    if event.fields.lookup "state" = some Stage.released.name then
      (event.fields.lookup "token").map Token.mk
    else none
  | _ => none

theorem Attempting.transcript (h : Attempting spec said result) :
    Transcript spec (said.filter Exchange.isCall) result := by
  cases h with
  | refused error => exact .refused error (.refused error) rfl
  | ready token => exact .ready token
  | late token started answer => cases answer <;> exact .late token _
  | failed token started error answer => cases answer <;> exact .failed token error _

/-- Only a release that succeeded is logged as one. -/
theorem givingBack_logged (token : Token) {stage : Stage} (hstage : stage ≠ .released)
    (answer : Except (SchedulerError Q) Unit) :
    (givingBack token stage answer).filterMap Exchange.loggedReleased?
      = (givingBack token stage answer).filterMap Exchange.takenBack? := by
  cases answer with
  | ok taken => rfl
  | error error =>
    cases stage with
    | released => exact absurd rfl hstage
    | requested | ready | timedOut => rfl

theorem Attempting.logged (h : Attempting spec said result) :
    said.filterMap Exchange.loggedReleased? = said.filterMap Exchange.takenBack? := by
  cases h with
  | refused | ready => rfl
  | late token started answer =>
    rw [List.filterMap_append, List.filterMap_append, givingBack_logged token (by decide)]
    rfl
  | failed token started error answer =>
    rw [List.filterMap_append, List.filterMap_append, givingBack_logged token (by decide)]
    rfl

theorem releaseHandle_logged (group : Option (Handle Q)) :
    (releaseHandle group).Ensures fun said _ =>
      said.filterMap Exchange.loggedReleased? = said.filterMap Exchange.takenBack? := by
  cases group with
  | none => rfl
  | some handle =>
    refine (releaseToken_givingBack handle.token .ready).mono ?_
    rintro said _ ⟨answer, rfl⟩
    exact givingBack_logged handle.token (by decide) answer

/-- **The protocol of reserving, for any scheduler.** Attempts that follow each other ask the scheduler each
what its transcript says and answer accordingly, whatever state the scheduler is in and whatever it answers.
Of these attempts and of the release of any handle the log shows as released just what was taken back. -/
theorem reserve_transcripts (specs : List (PlacementSpec Q)) (answer : Surroundings Q σ) (s : σ) :
    let finished := (inTurn reserve specs).run answer s
    InTurn (fun spec said result => Transcript spec (said.filter Exchange.isCall) result)
        specs finished.exchanges finished.result
      ∧ finished.exchanges.filterMap Exchange.loggedReleased?
          = finished.exchanges.filterMap Exchange.takenBack?
      ∧ ∀ group s,
          ((releaseHandle group).run answer s).exchanges.filterMap Exchange.loggedReleased?
            = ((releaseHandle group).run answer s).exchanges.filterMap Exchange.takenBack? := by
  intro finished
  have hattempts : InTurn Attempting specs finished.exchanges finished.result :=
    (inTurn_ensures reserve_attempting specs).run answer s
  refine ⟨?_, hattempts.filterMap_eq fun _ _ _ => Attempting.logged, fun group s => ?_⟩
  · refine (inTurn_ensures (fun spec => ?_) specs).run answer s
    exact (reserve_attempting spec).mono fun _ _ => Attempting.transcript
  · exact (releaseHandle_logged group).run answer s

end Log

end ActorPlacement
