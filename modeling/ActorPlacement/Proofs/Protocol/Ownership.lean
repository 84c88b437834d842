import ActorPlacement.Proofs.Protocol.Accounts

/-!
# No reservation leaks and none is lost

In every state that clients can bring about the live reservations are those of attempts under way and
those of handles that are out, each once (`Accounted`). An attempt that fails leaves nothing
behind, also when its reservation was placed after it had stopped waiting, and who holds a handle has a
placed reservation for what was asked.
-/

namespace ActorPlacement

variable {Q : Type} [Quantity Q]

namespace System

/-! ## Every step keeps the accounts -/

theorem Accounts.start {c : Cluster Q} (h : c.Built) : Accounts ⟨c, [], []⟩ where
  orderly := h.unused.orderly
  queue := Cluster.pending_run h []
  phases a ha := by cases ha
  granted token htoken := by cases htoken
  distinct := List.nodup_nil
  owned token htoken := by
    rw [Cluster.tokens, h.unused.reservations] at htoken
    cases htoken
  returns r hr := by cases hr

theorem Accounts.step {s s' : System Q} (h : Accounts s) (step : Step s s') : Accounts s' := by
  cases step with
  | attempt _ _ settled => exact h.attempt settled
  | attemptTurn before after turn => exact h.attemptTurn turn
  | giveBack _ began returned settled => exact h.giveBack began returned settled
  | returnTurn before after turn => exact h.returnTurn turn
  | addNode => exact h.operation rfl rfl
  | setDraining => exact h.operation rfl rfl

theorem accounts_of_reachable {s : System Q} (h : Reachable s) : Accounts s := by
  induction h with
  | start built => exact .start built
  | step _ step ih => exact ih.step step

/-- A step touches no reservation whose handle is out. -/
theorem Accounts.untouched {s s' : System Q} (h : Accounts s) (step : Step s s') {a : Attempt Q}
    (ha : a ∈ s.attempts) {handle : Handle Q} (hhandle : a.handle? = some handle)
    (hout : s'.released handle.token = false) :
    Cluster.Untouched handle.token s.cluster s'.cluster ∧ a ∈ s'.attempts := by
  obtain ⟨phase, hin, -⟩ := h.phases a ha
  have htoken : a.token? = some handle.token := by
    rw [hin.token?_eq, (Accounts.holding_of_handle? hin hhandle).1]
    rfl
  cases step with
  | attempt => exact ⟨.refl _ _, List.mem_append_left _ ha⟩
  | attemptTurn before after turn =>
    rcases mem_middle.1 ha with rfl | ha
    · rw [(Accounts.holding_of_handle? hin hhandle).1] at hin
      obtain ⟨later, -, hturn⟩ := hin.turn turn
      cases hturn
    · exact ⟨h.turn_others turn _ (List.mem_filterMap.2 ⟨a, ha, htoken⟩), mem_middle.2 (.inr ha)⟩
  | giveBack => exact ⟨.refl _ _, ha⟩
  | @returnTurn c c' attempts before after r t turn =>
    obtain ⟨hstanding, -⟩ := h.returns r (List.mem_append_right _ List.mem_cons_self)
    obtain ⟨rfl, hdone⟩ := hstanding.turn turn
    rw [Accounts.released_returnTurn c _ attempts before after r hdone, Bool.or_eq_false_iff] at hout
    have hne : r.handle.token ≠ handle.token := of_decide_eq_false hout.2
    refine ⟨h.orderly.untouched_apply (.release r.handle.token) (fun hsame => hne ?_)
      (fun hgrant => by cases hgrant), ha⟩
    exact Option.some.inj hsame
  | addNode _ id resources draining =>
    exact ⟨h.orderly.untouched_apply (.addNode id resources draining)
      (fun hsame => by cases hsame) (fun hgrant => by cases hgrant), ha⟩
  | setDraining _ id draining =>
    exact ⟨h.orderly.untouched_apply (.setDraining id draining)
      (fun hsame => by cases hsame) (fun hgrant => by cases hgrant), ha⟩

/-! ## Who owns what -/

theorem mem_handles {s : System Q} {token : Token} :
    token ∈ s.handles.map Handle.token
      ↔ ∃ a ∈ s.attempts, ∃ handle, a.handle? = some handle ∧ handle.token = token
        ∧ s.released token = false := by
  simp only [handles, List.mem_map, List.mem_filter, List.mem_filterMap, Bool.not_eq_true']
  constructor
  · rintro ⟨handle, ⟨⟨a, ha, hhandle⟩, hout⟩, rfl⟩
    exact ⟨a, ha, handle, hhandle, rfl, hout⟩
  · rintro ⟨a, ha, handle, hhandle, rfl, hout⟩
    exact ⟨handle, ⟨⟨a, ha, hhandle⟩, hout⟩, rfl⟩

/-- Options that give less give a sublist. -/
theorem filterMap_sublist {α β : Type} {f g : α → Option β} {l : List α}
    (h : ∀ a ∈ l, ∀ b, f a = some b → g a = some b) : (l.filterMap f).Sublist (l.filterMap g) := by
  have hfilter : l.filterMap f = (l.filter fun a => (f a).isSome).filterMap g := by
    rw [List.filterMap_filter]
    refine List.filterMap_congr fun a ha => ?_
    cases hf : f a with
    | none => rfl
    | some b => exact (h a ha b hf).symm
  rw [hfilter]
  exact List.filter_sublist.filterMap g

theorem token?_of_ongoing? {a : Attempt Q} {token : Token} (h : a.ongoing? = some token) :
    a.token? = some token ∧ a.handle? = none := by
  simp only [Attempt.ongoing?] at h
  split at h
  · cases h
  · rename_i hunfinished
    refine ⟨h, ?_⟩
    simp only [Bool.not_eq_true, Option.isSome_eq_false_iff, Option.isNone_iff_eq_none] at hunfinished
    rw [Attempt.handle?, hunfinished]

variable {s : System Q}

theorem Accounts.token?_of_handle? (h : Accounts s) {a : Attempt Q} (ha : a ∈ s.attempts)
    {handle : Handle Q} (hhandle : a.handle? = some handle) :
    handle.spec = a.spec ∧ a.token? = some handle.token := by
  obtain ⟨phase, hin, -⟩ := h.phases a ha
  obtain ⟨hphase, hspec⟩ := Accounts.holding_of_handle? hin hhandle
  refine ⟨hspec, ?_⟩
  rw [hin.token?_eq, hphase]
  rfl

theorem Accounts.apart (h : Accounts s) : (s.ongoing ++ s.handles.map Handle.token).Nodup := by
  have hhandles : (s.handles.map Handle.token).Sublist s.tokens := by
    refine (List.filter_sublist.map _).trans ?_
    rw [List.map_filterMap]
    refine filterMap_sublist fun a ha token htoken => ?_
    obtain ⟨handle, hhandle, rfl⟩ := Option.map_eq_some_iff.1 htoken
    exact (h.token?_of_handle? ha hhandle).2
  refine List.nodup_append.2 ⟨?_, hhandles.nodup h.distinct, ?_⟩
  · exact (filterMap_sublist fun a _ token htoken => (token?_of_ongoing? htoken).1).nodup h.distinct
  · intro token hongoing other hother heq
    subst heq
    obtain ⟨a, ha, ha'⟩ := List.mem_filterMap.1 hongoing
    obtain ⟨b, hb, handle, hhandle, rfl, -⟩ := mem_handles.1 hother
    obtain ⟨htoken, hunheld⟩ := token?_of_ongoing? ha'
    -- one attempt would be under way and have returned its handle
    rw [eq_of_token? h.distinct ha hb htoken (h.token?_of_handle? hb hhandle).2, hhandle] at hunheld
    cases hunheld

/-- The live tokens are those of attempts under way and of handles that are out. -/
theorem Accounts.mem_tokens (h : Accounts s) {token : Token} :
    token ∈ s.cluster.tokens ↔ token ∈ s.ongoing ++ s.handles.map Handle.token := by
  rw [List.mem_append, mem_handles]
  constructor
  · intro hlive
    obtain ⟨a, ha, htoken⟩ := List.mem_filterMap.1 (h.owned token hlive)
    obtain ⟨phase, hin, hfits⟩ := h.phases a ha
    rw [hin.token?_eq] at htoken
    cases phase with
    | fresh | refused => cases htoken
    | waiting | cleaning => exact .inl (List.mem_filterMap.2 ⟨a, ha, hin.ongoing?_eq.trans htoken⟩)
    | failed => cases htoken; exact absurd hlive hfits
    | holding =>
      cases htoken
      refine .inr ⟨a, ha, _, hin.handle?_eq, rfl, ?_⟩
      rw [Bool.eq_false_iff]
      exact fun hout => hfits.1 hout hlive
  · rintro (hongoing | ⟨a, ha, handle, hhandle, rfl, hout⟩)
    · obtain ⟨a, ha, htoken⟩ := List.mem_filterMap.1 hongoing
      obtain ⟨phase, hin, hfits⟩ := h.phases a ha
      rw [hin.ongoing?_eq] at htoken
      cases phase with
      | fresh | refused | failed | holding => cases htoken
      | waiting | cleaning =>
        cases htoken
        obtain ⟨r, hr, rfl, -⟩ := hfits
        exact List.mem_map_of_mem hr
    · obtain ⟨phase, hin, hfits⟩ := h.phases a ha
      rw [(Accounts.holding_of_handle? hin hhandle).1] at hfits
      obtain ⟨r, hr, htoken, -⟩ := hfits.2 hout
      rw [← htoken]
      exact List.mem_map_of_mem hr

/-- Who accounts for the live reservations, and what attempts have come to. -/
structure Accounted (s : System Q) : Prop where
  live : s.cluster.tokens.Perm (s.ongoing ++ s.handles.map Handle.token)
  apart : (s.ongoing ++ s.handles.map Handle.token).Nodup
  failed : ∀ a ∈ s.attempts, a.failure?.isSome → ∀ token, a.token? = some token →
    s.cluster.find? token = none ∧ token ∉ s.cluster.pending
  returned : ∀ a ∈ s.attempts, ∀ handle, a.handle? = some handle →
    handle.spec = a.spec ∧ a.token? = some handle.token
  placed : ∀ handle ∈ s.handles, ∃ r, s.cluster.find? handle.token = some r
    ∧ r.bundles = handle.spec.bundles ∧ r.strategy = handle.spec.strategy ∧ r.assignment.isSome
    ∧ r.ready = true

/-- Who holds a handle finds a placed reservation for its spec. -/
theorem Accounts.holds (h : Accounts s) {handle : Handle Q} (hhandle : handle ∈ s.handles) :
    ∃ r, s.cluster.find? handle.token = some r ∧ r.bundles = handle.spec.bundles
      ∧ r.strategy = handle.spec.strategy ∧ r.assignment.isSome ∧ r.ready = true := by
  obtain ⟨hreturned, hout⟩ := List.mem_filter.1 hhandle
  obtain ⟨a, ha, hhandle⟩ := List.mem_filterMap.1 hreturned
  obtain ⟨phase, hin, hfits⟩ := h.phases a ha
  obtain ⟨hphase, hspec⟩ := Accounts.holding_of_handle? hin hhandle
  rw [hphase] at hfits
  obtain ⟨r, hr, htoken, hbundles, hstrategy, hplaced⟩ := hfits.2 (by simpa using hout)
  refine ⟨r, ?_, hspec ▸ hbundles, hspec ▸ hstrategy, hplaced, ?_⟩
  · rw [← htoken, h.orderly.find?_token hr]
  · rw [h.orderly.ready r hr, hplaced]

theorem Accounts.accounted (h : Accounts s) : Accounted s where
  live := (List.perm_ext_iff_of_nodup h.orderly.tokens_nodup h.apart).2 fun _ => h.mem_tokens
  apart := h.apart
  failed a ha hfailed token htoken := by
    obtain ⟨failure, hfailure⟩ := Option.isSome_iff_exists.1 hfailed
    obtain ⟨phase, hin, hfits⟩ := h.phases a ha
    rw [hin.token?_eq] at htoken
    rcases hin.of_failure hfailure with rfl | ⟨other, rfl⟩
    · cases htoken
    · cases htoken
      refine ⟨List.find?_eq_none.2 fun r hr hr' => hfits ?_, fun hpending => hfits ?_⟩
      · rw [← of_decide_eq_true hr']
        exact List.mem_map_of_mem hr
      · rw [h.queue] at hpending
        exact (Cluster.waiting_sublist _).subset hpending
  returned a ha handle hhandle := h.token?_of_handle? ha hhandle
  placed handle hhandle := h.holds hhandle

/-- **No reservation leaks and none is lost**, in any state that clients bring about. While a handle is
out, no step moves its reservation. -/
theorem accounted_of_reachable (h : Reachable s) :
    Accounted s ∧ ∀ s', Step s s' → ∀ handle ∈ s.handles, s'.released handle.token = false →
      handle ∈ s'.handles ∧ (s'.cluster.find? handle.token).map Reservation.assignment
        = (s.cluster.find? handle.token).map Reservation.assignment := by
  have haccounts := accounts_of_reachable h
  refine ⟨haccounts.accounted, fun s' step handle hhandle hout => ?_⟩
  obtain ⟨r, hfind, -, -, hplaced, -⟩ := haccounts.holds hhandle
  obtain ⟨a, ha, hreturned⟩ := List.mem_filterMap.1 (List.mem_filter.1 hhandle).1
  obtain ⟨huntouched, ha'⟩ := haccounts.untouched step ha hreturned hout
  refine ⟨List.mem_filter.2 ⟨List.mem_filterMap.2 ⟨a, ha', hreturned⟩, by simpa using hout⟩, ?_⟩
  obtain ⟨r', hr', hbecomes⟩ := huntouched.kept r (Cluster.mem_of_find? hfind)
    (Cluster.token_of_find? hfind)
  have hfind' := (haccounts.step step).orderly.find?_token hr'
  rw [hbecomes.token, Cluster.token_of_find? hfind] at hfind'
  rw [hfind', hfind, Option.map_some, Option.map_some, hbecomes.placed hplaced]

/-! ## A placement that comes too late -/

theorem Reachable.begin (h : Reachable s) (spec : PlacementSpec Q) :
    ∃ t, Attempt.InPhase ⟨spec, t⟩ .fresh
      ∧ Reachable { s with attempts := s.attempts ++ [⟨spec, t⟩] } := by
  obtain ⟨t, settled⟩ := Thread.exists_settles [] (reserve spec)
  exact ⟨t, .begin settled, h.step (.attempt s spec settled)⟩

theorem Reachable.turn {c c' : Cluster Q} (before after : List (Attempt Q)) {a : Attempt Q}
    {returns : List (Return Q)} {phase later : Phase}
    (h : Reachable ⟨c, before ++ a :: after, returns⟩) (hin : a.InPhase phase)
    (turn : phase.Turn a.spec c c' later) :
    ∃ t, Attempt.InPhase { a with thread := t } later
      ∧ Reachable ⟨c', before ++ { a with thread := t } :: after, returns⟩ := by
  obtain ⟨t, turn, hlater⟩ := hin.exists_turn turn
  exact ⟨t, hlater, h.step (.attemptTurn before after turn)⟩

/-- Of two attempts for one unit the second stops waiting, the first gives its unit back, which places the
reservation of the second, and the second then gives it back. -/
theorem accounted_of_late_placement :
    ∃ s s' : System Rat, Reachable s ∧ Accounted s
      ∧ (s.cluster.find? (.numbered 2)).map (fun r => r.assignment.isSome) = some true
      ∧ s.ongoing = [.numbered 2] ∧ s.handles = []
      ∧ Step s s' ∧ Accounted s' ∧ s'.cluster.tokens = [] := by
  let unit : Bundle Rat := NameMap.empty.insert "CPU" 1
  let c : Cluster Rat := Cluster.ofNodes [Node.idle "n" unit false]
  let spec : PlacementSpec Rat := ⟨[unit], .pack, .halfMinute, by simp, by decide, by decide +kernel⟩
  let submit : Operation Rat := .submit spec.bundles spec.strategy
  have hstart : Reachable ⟨c, [], []⟩ := .start (.ofNodes _ (by simp [Node.idle]))
  have hone : c.grant? submit = some (.numbered 1) := by decide +kernel
  have htwo : (c.apply submit).grant? submit = some (.numbered 2) := by decide +kernel
  have hready : (((c.apply submit).apply submit).find? (.numbered 1)).map Reservation.ready = some true := by
    decide +kernel
  have hlate : (((c.apply submit).apply submit).find? (.numbered 2)).map Reservation.ready = some false := by
    decide +kernel
  have hplaced : ((((c.apply submit).apply submit).apply (.release (.numbered 1))).find?
      (.numbered 2)).map (fun r => r.assignment.isSome) = some true := by decide +kernel
  have hnone : ((((c.apply submit).apply submit).apply (.release (.numbered 1))).apply
      (.release (.numbered 2))).tokens = [] := by decide +kernel
  -- both submit
  obtain ⟨first, hfirst, h⟩ := hstart.begin spec
  obtain ⟨second, hsecond, h⟩ := h.begin spec
  obtain ⟨first, hfirst, h⟩ := Reachable.turn [] [⟨spec, second⟩] h hfirst
    (.submit (.numbered 1) hone)
  obtain ⟨second, hsecond, h⟩ := Reachable.turn [⟨spec, first⟩] [] h hsecond
    (.submit (.numbered 2) htwo)
  -- the second waits in vain, the first does not
  obtain ⟨second, hsecond, h⟩ := Reachable.turn [⟨spec, first⟩] [] h hsecond
    (.expire (.numbered 2) fun r hr => by rw [hr] at hlate; exact Option.some.inj hlate)
  obtain ⟨first, hfirst, h⟩ := Reachable.turn [] [⟨spec, second⟩] h hfirst
    (.ready (.numbered 1) (.inr (Option.map_eq_some_iff.1 hready)))
  -- the handle of the first is given back
  obtain ⟨t, settled⟩ := Thread.exists_settles [] (releaseHandle (some ⟨.numbered 1, spec⟩))
  have h := h.step (.giveBack _ List.mem_cons_self hfirst.handle?_eq settled)
  have hbegun : Return.Standing ⟨⟨.numbered 1, spec⟩, t⟩ := .inl (Return.begin settled)
  obtain ⟨t', turn⟩ := Return.exists_turn (r := ⟨⟨.numbered 1, spec⟩, t⟩) (Return.begin settled)
    ((c.apply submit).apply submit)
  have hdone := (hbegun.turn turn).2
  have h := h.step (.returnTurn [] [] turn)
  -- and the second cleans up
  obtain ⟨u, uturn, hu⟩ := hsecond.exists_turn
    (.release (c := ((c.apply submit).apply submit).apply (.release (.numbered 1))) (.numbered 2))
  have hstep : Step ⟨_, [⟨spec, first⟩, ⟨spec, second⟩], [⟨⟨.numbered 1, spec⟩, t'⟩]⟩ _ :=
    .attemptTurn [⟨spec, first⟩] [] uturn
  refine ⟨_, _, h, (accounted_of_reachable h).1, hplaced, ?_, ?_, hstep,
    (accounted_of_reachable (h.step hstep)).1, hnone⟩
  · simp [System.ongoing, hfirst.ongoing?_eq, hsecond.ongoing?_eq, Phase.ongoing?]
  · simp [System.handles, System.released, hfirst.handle?_eq, hsecond.handle?_eq, Phase.held?, hdone]

end System

end ActorPlacement
