import ActorPlacement.Proofs.Cluster.Moves
import ActorPlacement.Protocol.Clients

/-!
# The phases of an attempt

However an attempt is interrupted, between two calls it stands in one of six phases, and a call of the
cluster takes it from one to another (`Attempt.InPhase.turn`). What is proved of attempts is proved of
their phases.
-/

namespace ActorPlacement

variable {Q : Type} [Quantity Q]

/-- Where an attempt stands between two calls. -/
inductive Phase where
  /-- Nothing was asked yet. -/
  | fresh
  /-- The submission was refused. -/
  | refused
  /-- The reservation is awaited. -/
  | waiting (token : Token)
  /-- The wait has failed and the reservation is to be given back. -/
  | cleaning (token : Token)
  /-- The reservation was given back and the failure answered. -/
  | failed (token : Token)
  /-- The handle was answered. -/
  | holding (token : Token)

namespace Phase

/-- The token that was granted. -/
def token? : Phase → Option Token
  | fresh | refused => none
  | waiting token | cleaning token | failed token | holding token => some token

/-- The token of an attempt that is not finished. -/
def ongoing? : Phase → Option Token
  | waiting token | cleaning token => some token
  | fresh | refused | failed _ | holding _ => none

/-- The token of the handle that was answered. -/
def held? : Phase → Option Token
  | holding token => some token
  | fresh | refused | waiting _ | cleaning _ | failed _ => none

/-- What a call of a cluster does to the phase of an attempt. -/
inductive Turn (spec : PlacementSpec Q) (c : Cluster Q) : Phase → Cluster Q → Phase → Prop where
  | refuse (refusal : c.grant? (.submit spec.bundles spec.strategy) = none) : Turn spec c fresh c refused
  | submit (token : Token) (granted : c.grant? (.submit spec.bundles spec.strategy) = some token) :
    Turn spec c fresh (c.apply (.submit spec.bundles spec.strategy)) (waiting token)
  | ready (token : Token)
      (found : c.find? token = none ∨ ∃ r, c.find? token = some r ∧ r.ready = true) :
    Turn spec c (waiting token) c (holding token)
  | expire (token : Token) (late : ∀ r, c.find? token = some r → r.ready = false) :
    Turn spec c (waiting token) c (cleaning token)
  | release (token : Token) : Turn spec c (cleaning token) (c.apply (.release token)) (failed token)

variable {spec : PlacementSpec Q} {c c' : Cluster Q} {token : Token} {later : Phase}

/-- What a submission is answered with decides how its attempt goes on. -/
theorem turn_iff_submit : Turn spec c fresh c' later
    ↔ ∃ answer, Served c (.submit spec.bundles spec.strategy) answer c'
      ∧ later = (answer : Except (SchedulerError Q) Token).toOption.elim refused waiting := by
  have hgrant : ((c.submit spec.bundles spec.strategy).2.mapError SchedulerError.rejected).toOption
      = c.grant? (.submit spec.bundles spec.strategy) := by
    rw [Cluster.grant?]
    cases (c.submit spec.bundles spec.strategy).2 <;> rfl
  constructor
  · intro turn
    cases turn with
    | refuse refusal =>
      have hserved := Served.submit c spec.bundles spec.strategy
      rw [Cluster.submit_of_grant?_eq_none refusal] at hserved
      refine ⟨_, hserved, ?_⟩
      rw [hgrant, refusal]
      rfl
    | submit token granted =>
      refine ⟨_, .submit c spec.bundles spec.strategy, ?_⟩
      rw [hgrant, granted]
      rfl
  · rintro ⟨answer, served, rfl⟩
    cases served with
    | submit =>
      rw [hgrant]
      cases h : c.grant? (.submit spec.bundles spec.strategy) with
      | none =>
        rw [Cluster.submit_of_grant?_eq_none h]
        exact .refuse h
      | some token => exact .submit token h

/-- What a wait is answered with decides how its attempt goes on. -/
theorem turn_iff_wait : Turn spec c (waiting token) c' later
    ↔ ∃ answer, Served c (.wait token spec.timeout) answer c'
      ∧ later = if (answer : Except (SchedulerError Q) Bool).toOption = some true then holding token
          else cleaning token := by
  constructor
  · intro turn
    cases turn with
    | ready _ found =>
      rcases found with gone | ⟨r, hfind, hready⟩
      · exact ⟨.ok true, .vanished c token spec.timeout true gone, rfl⟩
      · refine ⟨c.look token, .look c token spec.timeout, ?_⟩
        simp [Cluster.look, hfind, hready, Except.toOption]
    | expire _ late =>
      refine ⟨c.look token, .look c token spec.timeout, ?_⟩
      cases hfind : c.find? token with
      | none => simp [Cluster.look, hfind, Except.toOption]
      | some r => simp [Cluster.look, hfind, late r hfind, Except.toOption]
  · rintro ⟨answer, served, rfl⟩
    cases served with
    | look =>
      cases hfind : c.find? token with
      | none =>
        simp only [Cluster.look, hfind, Except.toOption]
        exact .expire token (by simp [hfind])
      | some r =>
        simp only [Cluster.look, hfind, Except.toOption]
        cases hready : r.ready with
        | true => exact .ready token (.inr ⟨r, hfind, hready⟩)
        | false =>
          refine .expire token fun s hs => ?_
          rw [hfind] at hs
          cases hs
          exact hready
    | vanished _ _ wasReady gone =>
      cases wasReady with
      | true => exact .ready token (.inl gone)
      | false => exact .expire token (by simp [gone])

theorem turn_iff_release : Turn spec c (cleaning token) c' later
    ↔ ∃ answer : Except (SchedulerError Q) Unit, Served c (.release token) answer c'
      ∧ later = failed token := by
  constructor
  · intro turn
    cases turn with
    | release => exact ⟨_, .release c token, rfl⟩
  · rintro ⟨answer, served, rfl⟩
    cases served with
    | release => exact .release token

end Phase

/-! ## Where the protocol of an attempt is interrupted -/

/-- Give the reservation of a token back and answer a failure. -/
def giveUp (token : Token) (failure : Failure Q) : Protocol Q (Except (Failure Q) (Handle Q)) :=
  (releaseToken token .timedOut).bind fun _ => .done (.error failure)

/-- How an attempt goes on when it hears of its release. -/
def afterRelease (token : Token) (failure : Failure Q) :
    Except (SchedulerError Q) Unit → Protocol Q (Except (Failure Q) (Handle Q))
  | .ok () => .ask (.record (.released token)) fun _ => .done (.error failure)
  | .error error => .ask (.record (.releaseFailed token .timedOut error)) fun _ => .done (.error failure)

/-- How an attempt goes on when it hears of its reservation. -/
def afterWait (spec : PlacementSpec Q) (token : Token) (started : Nat) :
    Except (SchedulerError Q) Bool → Protocol Q (Except (Failure Q) (Handle Q))
  | .ok true => .ask .clock fun finished : Nat =>
      .ask (.record (.ready token spec (finished - started))) fun _ => .done (.ok ⟨token, spec⟩)
  | .ok false => .ask (.record (.timedOut token spec)) fun _ =>
      giveUp token (.notReady spec.timeout .timedOut)
  | .error error => .ask (.record (.waitFailed token error)) fun _ => giveUp token (.scheduler error)

/-- How an attempt goes on when it hears of its submission. -/
def afterSubmit (spec : PlacementSpec Q) :
    Except (SchedulerError Q) Token → Protocol Q (Except (Failure Q) (Handle Q))
  | .error error => .ask (.record (.refused spec error)) fun _ =>
      .done (.error (.notReady spec.timeout (.refused error)))
  | .ok token => .ask (.record (.requested token spec)) fun _ =>
      .ask .clock fun started : Nat => .ask (.wait token spec.timeout) (afterWait spec token started)

theorem reserve_eq (spec : PlacementSpec Q) :
    reserve spec = .ask (.submit spec.bundles spec.strategy) (afterSubmit spec) := by
  refine congrArg (Protocol.ask (.submit spec.bundles spec.strategy)) (funext fun answer => ?_)
  rcases answer with error | token
  · rfl
  · refine congrArg (Protocol.ask (.record (.requested token spec))) (funext fun _ => ?_)
    refine congrArg (Protocol.ask .clock) (funext fun started => ?_)
    refine congrArg (Protocol.ask (.wait token spec.timeout)) (funext fun answer => ?_)
    rcases answer with error | placed
    · rfl
    · cases placed <;> rfl

theorem giveUp_eq (token : Token) (failure : Failure Q) :
    giveUp token failure = .ask (.release token) (afterRelease token failure) := by
  refine congrArg (Protocol.ask (.release token)) (funext fun answer => ?_)
  cases answer <;> rfl

/-! ## Threads -/

namespace Thread

variable {α : Type} {said : List (Protocol.Exchange Q)} {request : Request Q}
  {next : request.Answer → Protocol Q α} {t : Thread Q α}

theorem settles_done {result : α} (h : Settles ⟨said, .done result⟩ t) : t = ⟨said, .done result⟩ := by
  cases h
  rfl

theorem settles_calling (hcalls : request.isLocal = false) (h : Settles ⟨said, .ask request next⟩ t) :
    t = ⟨said, .ask request next⟩ := by
  cases h with
  | calling => rfl
  | goOn answer alone later =>
    rw [hcalls] at alone
    cases alone

theorem settles_local (hlocal : request.isLocal = true) (h : Settles ⟨said, .ask request next⟩ t) :
    ∃ answer, Settles ⟨said ++ [⟨request, answer⟩], next answer⟩ t := by
  cases h with
  | calling _ _ _ calls =>
    rw [hlocal] at calls
    cases calls
  | goOn answer alone later => exact ⟨answer, later⟩

/-- A client that nobody hinders comes to its next call or to its end. -/
theorem exists_settles (said : List (Protocol.Exchange Q)) (rest : Protocol Q α) :
    ∃ t, Settles ⟨said, rest⟩ t := by
  induction rest generalizing said with
  | done result => exact ⟨_, .done said result⟩
  | ask request next ih =>
    have hlocal : ∀ answer : request.Answer, request.isLocal = true →
        ∃ t, Settles ⟨said, .ask request next⟩ t := by
      intro answer halone
      obtain ⟨t, ht⟩ := ih answer (said ++ [⟨request, answer⟩])
      exact ⟨t, .goOn answer halone ht⟩
    cases request with
    | submit | wait | release => exact ⟨_, .calling said _ next rfl⟩
    | record => exact hlocal () rfl
    | clock => exact hlocal (0 : Nat) rfl
    | backendUp => exact hlocal true rfl
    | nextActor => exact hlocal (0 : Nat) rfl

theorem served_answerAlone (request : Request Q) (calls : request.isLocal = false) (c : Cluster Q) :
    Served c request (Cluster.answerAlone request c).1 (Cluster.answerAlone request c).2 := by
  cases request with
  | submit bundles strategy => exact .submit c bundles strategy
  | wait token timeout => exact .look c token timeout
  | release token => exact .release c token
  | record | clock | backendUp | nextActor => cases calls

/-- What a client does alone on a cluster is one way for it to take its turns. -/
theorem exists_turns_run (rest : Protocol Q α) (said : List (Protocol.Exchange Q)) (c : Cluster Q) :
    ∃ t, Settles ⟨said, rest⟩ t ∧
      Relation.ReflTransGen (fun x y : Cluster Q × Thread Q α => Turn x.1 x.2 y.1 y.2) (c, t)
        ((rest.run Cluster.answerAlone c).state,
          ⟨said ++ (rest.run Cluster.answerAlone c).exchanges,
            .done (rest.run Cluster.answerAlone c).result⟩) := by
  induction rest generalizing said c with
  | done result =>
    refine ⟨_, .done said result, ?_⟩
    rw [Protocol.run, List.append_nil]
  | ask request next ih =>
    obtain ⟨t, hsettles, hturns⟩ := ih (Cluster.answerAlone request c).1
      (said ++ [⟨request, (Cluster.answerAlone request c).1⟩]) (Cluster.answerAlone request c).2
    rw [List.append_assoc] at hturns
    cases hcalls : request.isLocal with
    | true =>
      have hsame : (Cluster.answerAlone request c).2 = c := by
        cases request <;> first | rfl | cases hcalls
      rw [hsame] at hturns
      refine ⟨t, .goOn _ hcalls hsettles, ?_⟩
      simp only [Protocol.run, hsame]
      exact hturns
    | false =>
      refine ⟨_, .calling said request next hcalls, .head ?_ hturns⟩
      exact .call (served_answerAlone request hcalls c) hsettles

end Thread

/-- The token granted in what was said. -/
def grantedIn (said : List (Protocol.Exchange Q)) : Option Token :=
  said.findSome? Protocol.Exchange.granted?

theorem grantedIn_append (said : List (Protocol.Exchange Q)) (exchange : Protocol.Exchange Q) :
    grantedIn (said ++ [exchange]) = (grantedIn said).or exchange.granted? := by
  simp [grantedIn, List.findSome?_append]

/-! ## The phases -/

/-- What an attempt has said, and how it goes on, in each of its phases. -/
inductive Attempt.InPhase : Attempt Q → Phase → Prop where
  | fresh (spec : PlacementSpec Q) : InPhase ⟨spec, ⟨[], reserve spec⟩⟩ .fresh
  | refused (spec : PlacementSpec Q) (said : List (Protocol.Exchange Q)) (error : SchedulerError Q)
      (granted : grantedIn said = none) :
    InPhase ⟨spec, ⟨said, .done (.error (.notReady spec.timeout (.refused error)))⟩⟩ .refused
  | waiting (spec : PlacementSpec Q) (said : List (Protocol.Exchange Q)) (token : Token) (started : Nat)
      (granted : grantedIn said = some token) :
    InPhase ⟨spec, ⟨said, .ask (.wait token spec.timeout) (afterWait spec token started)⟩⟩
      (.waiting token)
  | cleaning (spec : PlacementSpec Q) (said : List (Protocol.Exchange Q)) (token : Token)
      (failure : Failure Q) (granted : grantedIn said = some token) :
    InPhase ⟨spec, ⟨said, giveUp token failure⟩⟩ (.cleaning token)
  | failed (spec : PlacementSpec Q) (said : List (Protocol.Exchange Q)) (token : Token)
      (failure : Failure Q) (granted : grantedIn said = some token) :
    InPhase ⟨spec, ⟨said, .done (.error failure)⟩⟩ (.failed token)
  | holding (spec : PlacementSpec Q) (said : List (Protocol.Exchange Q)) (token : Token)
      (granted : grantedIn said = some token) :
    InPhase ⟨spec, ⟨said, .done (.ok ⟨token, spec⟩)⟩⟩ (.holding token)

namespace Attempt.InPhase

variable {a : Attempt Q} {phase : Phase}

theorem token?_eq (h : InPhase a phase) : a.token? = phase.token? := by
  cases h with
  | fresh => rfl
  | refused _ _ _ granted => exact granted
  | waiting _ _ _ _ granted => exact granted
  | cleaning _ _ _ _ granted => exact granted
  | failed _ _ _ _ granted => exact granted
  | holding _ _ _ granted => exact granted

/-- An attempt that hears of its submission waits for what it was granted, if anything. -/
theorem afterSubmit_settles {spec : PlacementSpec Q} {answer : Except (SchedulerError Q) Token}
    {t : Thread Q (Except (Failure Q) (Handle Q))}
    (settled : Thread.Settles
      ⟨[] ++ [⟨.submit spec.bundles spec.strategy, answer⟩], afterSubmit spec answer⟩ t) :
    InPhase ⟨spec, t⟩ (answer.toOption.elim .refused .waiting) := by
  rcases answer with error | token
  · obtain ⟨_, settled⟩ := Thread.settles_local rfl settled
    rw [Thread.settles_done settled]
    exact .refused spec _ error rfl
  · obtain ⟨_, settled⟩ := Thread.settles_local rfl settled
    obtain ⟨started, settled⟩ := Thread.settles_local rfl settled
    rw [Thread.settles_calling rfl settled]
    exact .waiting spec _ token started rfl

theorem giveUp_settles {spec : PlacementSpec Q} {said : List (Protocol.Exchange Q)} {token : Token}
    {failure : Failure Q} {t : Thread Q (Except (Failure Q) (Handle Q))}
    (granted : grantedIn said = some token) (settled : Thread.Settles ⟨said, giveUp token failure⟩ t) :
    InPhase ⟨spec, t⟩ (.cleaning token) := by
  rw [giveUp_eq] at settled
  rw [Thread.settles_calling rfl settled, ← giveUp_eq]
  exact .cleaning spec _ token failure granted

/-- An attempt that hears of its reservation returns a handle if it is ready, and else gives up. -/
theorem afterWait_settles {spec : PlacementSpec Q} {said : List (Protocol.Exchange Q)} {token : Token}
    {started : Nat} {answer : Except (SchedulerError Q) Bool}
    {t : Thread Q (Except (Failure Q) (Handle Q))} (granted : grantedIn said = some token)
    (settled : Thread.Settles
      ⟨said ++ [⟨.wait token spec.timeout, answer⟩], afterWait spec token started answer⟩ t) :
    InPhase ⟨spec, t⟩ (if answer.toOption = some true then .holding token else .cleaning token) := by
  have hgranted : ∀ exchange : Protocol.Exchange Q,
      grantedIn (said ++ [⟨.wait token spec.timeout, answer⟩] ++ [exchange]) = some token := by
    intro exchange
    rw [grantedIn_append, grantedIn_append, granted]
    rfl
  rcases answer with error | placed
  · obtain ⟨_, settled⟩ := Thread.settles_local rfl settled
    exact giveUp_settles (hgranted _) settled
  · cases placed with
    | true =>
      obtain ⟨_, settled⟩ := Thread.settles_local rfl settled
      obtain ⟨_, settled⟩ := Thread.settles_local rfl settled
      rw [Thread.settles_done settled]
      refine .holding spec _ token ?_
      rw [grantedIn_append, hgranted]
      rfl
    | false =>
      obtain ⟨_, settled⟩ := Thread.settles_local rfl settled
      exact giveUp_settles (hgranted _) settled

/-- An attempt that heard of its release answers the failure that it had. -/
theorem afterRelease_settles {spec : PlacementSpec Q} {said : List (Protocol.Exchange Q)} {token : Token}
    {failure : Failure Q} {answer : Except (SchedulerError Q) Unit}
    {t : Thread Q (Except (Failure Q) (Handle Q))} (granted : grantedIn said = some token)
    (settled : Thread.Settles
      ⟨said ++ [⟨.release token, answer⟩], afterRelease token failure answer⟩ t) :
    InPhase ⟨spec, t⟩ (.failed token) := by
  rcases answer with error | done
  all_goals
    obtain ⟨_, settled⟩ := Thread.settles_local rfl settled
    rw [Thread.settles_done settled]
    refine .failed spec _ token failure ?_
    rw [grantedIn_append, grantedIn_append, granted]
    rfl

/-- **A turn takes an attempt from one phase to another**, as the cluster has it. -/
theorem turn (h : InPhase a phase) {c c' : Cluster Q} {t : Thread Q (Except (Failure Q) (Handle Q))}
    (turn : a.thread.Turn c c' t) :
    ∃ later, InPhase { a with thread := t } later ∧ phase.Turn a.spec c c' later := by
  cases h with
  | fresh spec =>
    simp only [reserve_eq] at turn
    cases turn with
    | call served settled => exact ⟨_, afterSubmit_settles settled, Phase.turn_iff_submit.2 ⟨_, served, rfl⟩⟩
  | refused => cases turn
  | waiting spec said token started granted =>
    cases turn with
    | call served settled =>
      exact ⟨_, afterWait_settles granted settled, Phase.turn_iff_wait.2 ⟨_, served, rfl⟩⟩
  | cleaning spec said token failure granted =>
    rw [giveUp_eq] at turn
    cases turn with
    | call served settled =>
      exact ⟨_, afterRelease_settles granted settled, Phase.turn_iff_release.2 ⟨_, served, rfl⟩⟩
  | failed => cases turn
  | holding => cases turn

/-- Every turn of its phase is one that an attempt can take. -/
theorem exists_turn (h : InPhase a phase) {c c' : Cluster Q} {later : Phase}
    (turn : phase.Turn a.spec c c' later) :
    ∃ t, a.thread.Turn c c' t ∧ InPhase { a with thread := t } later := by
  cases h with
  | fresh spec =>
    obtain ⟨answer, served, rfl⟩ := Phase.turn_iff_submit.1 turn
    obtain ⟨t, settled⟩ := Thread.exists_settles
      ([] ++ [⟨.submit spec.bundles spec.strategy, answer⟩]) (afterSubmit spec answer)
    exact ⟨t, reserve_eq spec ▸ .call served settled, afterSubmit_settles settled⟩
  | refused => cases turn
  | waiting spec said token started granted =>
    obtain ⟨answer, served, rfl⟩ := Phase.turn_iff_wait.1 turn
    obtain ⟨t, settled⟩ := Thread.exists_settles
      (said ++ [⟨.wait token spec.timeout, answer⟩]) (afterWait spec token started answer)
    exact ⟨t, .call served settled, afterWait_settles granted settled⟩
  | cleaning spec said token failure granted =>
    obtain ⟨answer, served, rfl⟩ := Phase.turn_iff_release.1 turn
    obtain ⟨t, settled⟩ := Thread.exists_settles
      (said ++ [⟨.release token, answer⟩]) (afterRelease token failure answer)
    exact ⟨t, giveUp_eq token failure ▸ .call served settled, afterRelease_settles granted settled⟩
  | failed => cases turn
  | holding => cases turn

/-- An attempt begins with its submission. -/
theorem begin {spec : PlacementSpec Q} {t : Thread Q (Except (Failure Q) (Handle Q))}
    (settled : Thread.Settles ⟨[], reserve spec⟩ t) : InPhase ⟨spec, t⟩ .fresh := by
  rw [reserve_eq] at settled
  rw [Thread.settles_calling rfl settled, ← reserve_eq]
  exact .fresh spec

theorem ongoing?_eq (h : InPhase a phase) : a.ongoing? = phase.ongoing? := by
  have htoken := h.token?_eq
  cases h with
  | fresh | waiting | cleaning => exact htoken
  | refused | failed | holding => rfl

theorem handle?_eq (h : InPhase a phase) : a.handle? = phase.held?.map (⟨·, a.spec⟩) := by
  cases h <;> rfl

/-- An attempt that ended in a failure was refused or gave back what it was granted. -/
theorem of_failure (h : InPhase a phase) {failure : Failure Q} (hfailure : a.failure? = some failure) :
    phase = .refused ∨ ∃ token, phase = .failed token := by
  cases h with
  | refused => exact .inl rfl
  | failed _ _ token => exact .inr ⟨token, rfl⟩
  | fresh | waiting | cleaning | holding => cases hfailure

end Attempt.InPhase

/-! ## Releases -/

/-- The release of a handle has either not begun or ended. -/
def Return.Standing (r : Return Q) : Prop :=
  r.thread = ⟨[], releaseHandle (some r.handle)⟩ ∨ r.thread.result?.isSome

namespace Return

theorem begin {handle : Handle Q} {t : Thread Q Unit}
    (settled : Thread.Settles ⟨[], releaseHandle (some handle)⟩ t) :
    t = ⟨[], releaseHandle (some handle)⟩ :=
  Thread.settles_calling rfl settled

/-- The turn of a release releases the token of its handle, and ends it. -/
theorem Standing.turn {r : Return Q} (h : r.Standing) {c c' : Cluster Q} {t : Thread Q Unit}
    (turn : r.thread.Turn c c' t) : c' = c.apply (.release r.handle.token) ∧ t.result?.isSome := by
  rcases h with hthread | hdone
  · rw [hthread] at turn
    cases turn with
    | call served settled =>
      cases served with
      | release =>
        obtain ⟨_, settled⟩ := Thread.settles_local rfl settled
        rw [Thread.settles_done settled]
        exact ⟨rfl, rfl⟩
  · obtain ⟨handle, said, rest⟩ := r
    cases turn with
    | call => cases hdone

theorem exists_turn {r : Return Q} (h : r.thread = ⟨[], releaseHandle (some r.handle)⟩)
    (c : Cluster Q) : ∃ t, r.thread.Turn c (c.apply (.release r.handle.token)) t := by
  obtain ⟨t, settled⟩ := Thread.exists_settles (Q := Q) ([] ++ [⟨.release r.handle.token, .ok ()⟩])
    (Protocol.record (.released r.handle.token))
  exact ⟨t, h ▸ .call (.release c r.handle.token) settled⟩

end Return

end ActorPlacement
