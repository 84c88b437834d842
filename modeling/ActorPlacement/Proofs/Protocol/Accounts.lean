import ActorPlacement.Proofs.Cluster.Frame
import ActorPlacement.Proofs.Protocol.Phases

/-!
# Reservations of many clients

Every live reservation belongs to one attempt: one that is under way or one whose handle is out. `Accounts`
says what each attempt may expect of the cluster in its phase, and every step keeps that
(`Accounts.step`): a turn of one client touches the reservation of no other, whatever it places.
-/

namespace ActorPlacement

variable {Q : Type} [Quantity Q]

namespace System

/-- The tokens that were granted to attempts. -/
def tokens (s : System Q) : List Token := s.attempts.filterMap Attempt.token?

end System

/-- A reservation for a spec is live under a token. -/
def Cluster.Serves (c : Cluster Q) (spec : PlacementSpec Q) (token : Token) : Prop :=
  ∃ r ∈ c.reservations, r.token = token ∧ r.bundles = spec.bundles ∧ r.strategy = spec.strategy

/-- A reservation for a spec is live and placed under a token. -/
def Cluster.Holds (c : Cluster Q) (spec : PlacementSpec Q) (token : Token) : Prop :=
  ∃ r ∈ c.reservations, r.token = token ∧ r.bundles = spec.bundles ∧ r.strategy = spec.strategy
    ∧ r.assignment.isSome

/-- What an attempt in some phase may expect of a cluster, given which tokens have been released. -/
def Phase.Fits (c : Cluster Q) (released : Token → Bool) (spec : PlacementSpec Q) : Phase → Prop
  | fresh | refused => True
  | waiting token | cleaning token => c.Serves spec token
  | failed token => token ∉ c.tokens
  | holding token =>
    (released token = true → token ∉ c.tokens) ∧ (released token = false → c.Holds spec token)

/-- The accounts of a cluster and its clients. -/
structure System.Accounts (s : System Q) : Prop where
  orderly : s.cluster.Orderly
  queue : s.cluster.pending = s.cluster.waiting
  phases : ∀ a ∈ s.attempts, ∃ phase, a.InPhase phase ∧ phase.Fits s.cluster s.released a.spec
  granted : ∀ token ∈ s.tokens, token ∈ s.cluster.issuedTokens
  distinct : s.tokens.Nodup
  owned : ∀ token ∈ s.cluster.tokens, token ∈ s.tokens
  returns : ∀ r ∈ s.returns, r.Standing ∧ ∃ a ∈ s.attempts, a.handle? = some r.handle

/-! ## What others do -/

section Others

variable {c c' : Cluster Q} {released released' : Token → Bool} {spec : PlacementSpec Q} {token : Token}

theorem Cluster.Serves.untouched (h : c.Serves spec token) (hsame : Cluster.Untouched token c c') :
    c'.Serves spec token := by
  obtain ⟨r, hr, htoken, hbundles, hstrategy⟩ := h
  obtain ⟨s, hs, hrs⟩ := hsame.kept r hr htoken
  exact ⟨s, hs, hrs.token.trans htoken, hrs.bundles.trans hbundles, hrs.strategy.trans hstrategy⟩

theorem Cluster.Holds.untouched (h : c.Holds spec token) (hsame : Cluster.Untouched token c c') :
    c'.Holds spec token := by
  obtain ⟨r, hr, htoken, hbundles, hstrategy, hplaced⟩ := h
  obtain ⟨s, hs, hrs⟩ := hsame.kept r hr htoken
  refine ⟨s, hs, hrs.token.trans htoken, hrs.bundles.trans hbundles, hrs.strategy.trans hstrategy, ?_⟩
  rw [hrs.placed hplaced]
  exact hplaced

omit [Quantity Q] in
theorem Cluster.Untouched.refl (token : Token) (c : Cluster Q) : Cluster.Untouched token c c :=
  ⟨Cluster.keeps_of_reservations_eq rfl, id⟩

/-- What an attempt expects stays true while nobody touches its reservation. -/
theorem Phase.Fits.untouched {phase : Phase} (h : phase.Fits c released spec)
    (hsame : ∀ token, phase.token? = some token →
      Cluster.Untouched token c c' ∧ released' token = released token) :
    phase.Fits c' released' spec := by
  cases phase with
  | fresh | refused => trivial
  | waiting token | cleaning token => exact Cluster.Serves.untouched h (hsame token rfl).1
  | failed token => exact fun hmem => h ((hsame token rfl).1.absent hmem)
  | holding token =>
    obtain ⟨huntouched, hreleased⟩ := hsame token rfl
    refine ⟨fun hout => ?_, fun hout => ?_⟩
    · exact fun hmem => h.1 (hreleased ▸ hout) (huntouched.absent hmem)
    · exact (h.2 (hreleased ▸ hout)).untouched huntouched

end Others

/-! ## One attempt among others -/

section Middle

variable {before after : List (Attempt Q)} {a : Attempt Q}

theorem mem_filterMap_middle {token : Token} :
    token ∈ (before ++ a :: after).filterMap Attempt.token?
      ↔ a.token? = some token ∨ token ∈ (before ++ after).filterMap Attempt.token? := by
  rw [(List.perm_middle.filterMap Attempt.token?).mem_iff, List.filterMap_cons]
  cases a.token? <;> simp [eq_comm]

theorem nodup_filterMap_middle :
    ((before ++ a :: after).filterMap Attempt.token?).Nodup
      ↔ (∀ token, a.token? = some token → token ∉ (before ++ after).filterMap Attempt.token?)
        ∧ ((before ++ after).filterMap Attempt.token?).Nodup := by
  rw [(List.perm_middle.filterMap Attempt.token?).nodup_iff, List.filterMap_cons]
  cases a.token? <;> simp

theorem mem_middle {b : Attempt Q} : b ∈ before ++ a :: after ↔ b = a ∨ b ∈ before ++ after := by
  rw [List.perm_middle.mem_iff, List.mem_cons]

/-- A token determines its attempt. -/
theorem eq_of_token? {attempts : List (Attempt Q)} (h : (attempts.filterMap Attempt.token?).Nodup)
    {a b : Attempt Q} (ha : a ∈ attempts) (hb : b ∈ attempts) {token : Token}
    (hta : a.token? = some token) (htb : b.token? = some token) : a = b := by
  obtain ⟨before, after, rfl⟩ := List.append_of_mem ha
  rcases mem_middle.1 hb with rfl | hb
  · rfl
  · exact absurd (List.mem_filterMap.2 ⟨b, hb, htb⟩) ((nodup_filterMap_middle.1 h).1 token hta)

end Middle

namespace System.Accounts

variable {c c' : Cluster Q} {before after : List (Attempt Q)} {a : Attempt Q}
  {returns : List (Return Q)}

/-- The handle of an attempt that returned one has its token and its spec. -/
theorem holding_of_handle? {a : Attempt Q} {phase : Phase} (hin : a.InPhase phase) {handle : Handle Q}
    (hhandle : a.handle? = some handle) : phase = .holding handle.token ∧ handle.spec = a.spec := by
  rw [hin.handle?_eq] at hhandle
  cases phase with
  | holding token => cases hhandle; exact ⟨rfl, rfl⟩
  | fresh | refused | waiting | cleaning | failed => cases hhandle

/-- Only who returned a handle has it released. -/
theorem not_released {s : System Q} (h : Accounts s) {a : Attempt Q} (ha : a ∈ s.attempts)
    {token : Token} (htoken : a.token? = some token) (hunheld : a.handle? = none) :
    s.released token = false := by
  simp only [System.released, List.any_eq_false]
  intro r hr hreleased
  obtain ⟨-, b, hb, hhandle⟩ := h.returns r hr
  obtain ⟨phase, hin, -⟩ := h.phases b hb
  have hbtoken : b.token? = some token := by
    rw [hin.token?_eq, (holding_of_handle? hin hhandle).1]
    simp only [Bool.and_eq_true, decide_eq_true_eq] at hreleased
    rw [← hreleased.1]
    rfl
  rw [eq_of_token? h.distinct ha hb htoken hbtoken, hhandle] at hunheld
  cases hunheld

/-- One attempt may go on when the cluster leaves the reservations of the others alone and grants no
token twice. -/
theorem goOn (h : Accounts ⟨c, before ++ a :: after, returns⟩)
    {t : Thread Q (Except (Failure Q) (Handle Q))} (horderly : c'.Orderly)
    (hqueue : c'.pending = c'.waiting) (hissued : ∀ token ∈ c.issuedTokens, token ∈ c'.issuedTokens)
    (hothers : ∀ token ∈ (before ++ after).filterMap Attempt.token?, Cluster.Untouched token c c')
    (hphase : ∃ phase, Attempt.InPhase { a with thread := t } phase
      ∧ phase.Fits c' (System.released ⟨c, before ++ a :: after, returns⟩) a.spec)
    (hunheld : a.handle? = none)
    (hfresh : ∀ token, Attempt.token? { a with thread := t } = some token →
      token ∈ c'.issuedTokens ∧ token ∉ (before ++ after).filterMap Attempt.token?)
    (howned : ∀ token ∈ c'.tokens, Attempt.token? { a with thread := t } = some token
      ∨ token ∈ (before ++ after).filterMap Attempt.token?) :
    Accounts ⟨c', before ++ { a with thread := t } :: after, returns⟩ where
  orderly := horderly
  queue := hqueue
  phases b hb := by
    rcases mem_middle.1 hb with rfl | hb
    · exact hphase
    · obtain ⟨phase, hin, hfits⟩ := h.phases b (mem_middle.2 (.inr hb))
      refine ⟨phase, hin, hfits.untouched fun token htoken => ⟨hothers token ?_, rfl⟩⟩
      exact List.mem_filterMap.2 ⟨b, hb, by rw [hin.token?_eq, htoken]⟩
  granted token htoken := by
    rcases mem_filterMap_middle.1 htoken with htoken | htoken
    · exact (hfresh token htoken).1
    · exact hissued token (h.granted token (mem_filterMap_middle.2 (.inr htoken)))
  distinct := nodup_filterMap_middle.2
    ⟨fun token htoken => (hfresh token htoken).2, (nodup_filterMap_middle.1 h.distinct).2⟩
  owned token htoken := mem_filterMap_middle.2 (howned token htoken)
  returns r hr := by
    obtain ⟨hstanding, b, hb, hhandle⟩ := h.returns r hr
    refine ⟨hstanding, b, mem_middle.2 (.inr ?_), hhandle⟩
    rcases mem_middle.1 hb with rfl | hb
    · rw [hunheld] at hhandle
      cases hhandle
    · exact hb

/-- One attempt may go on with the token that it has, or still without one. -/
theorem goOn_same (h : Accounts ⟨c, before ++ a :: after, returns⟩)
    {t : Thread Q (Except (Failure Q) (Handle Q))} {later : Phase}
    (hlater : Attempt.InPhase { a with thread := t } later)
    (hfits : later.Fits c' (System.released ⟨c, before ++ a :: after, returns⟩) a.spec)
    (hunheld : a.handle? = none) (hsame : Attempt.token? { a with thread := t } = a.token?)
    (horderly : c'.Orderly) (hqueue : c'.pending = c'.waiting)
    (hissued : ∀ token ∈ c.issuedTokens, token ∈ c'.issuedTokens)
    (hlive : ∀ token ∈ c'.tokens, token ∈ c.tokens)
    (hothers : ∀ token ∈ (before ++ after).filterMap Attempt.token?, Cluster.Untouched token c c') :
    Accounts ⟨c', before ++ { a with thread := t } :: after, returns⟩ := by
  refine h.goOn horderly hqueue hissued hothers ⟨later, hlater, hfits⟩ hunheld ?_ ?_
  · intro token htoken
    rw [hsame] at htoken
    exact ⟨hissued token (h.granted token (mem_filterMap_middle.2 (.inl htoken))),
      (nodup_filterMap_middle.1 h.distinct).1 token htoken⟩
  · intro token htoken
    rw [hsame]
    exact mem_filterMap_middle.1 (h.owned token (hlive token htoken))

/-- The turn of an attempt touches the reservation of no other. -/
theorem turn_others (h : Accounts ⟨c, before ++ a :: after, returns⟩)
    {t : Thread Q (Except (Failure Q) (Handle Q))} (turn : a.thread.Turn c c' t) (token : Token)
    (htoken : token ∈ (before ++ after).filterMap Attempt.token?) : Cluster.Untouched token c c' := by
  obtain ⟨phase, hin, -⟩ := h.phases a (mem_middle.2 (.inl rfl))
  have hissued := h.granted token (mem_filterMap_middle.2 (.inr htoken))
  have hapart := (nodup_filterMap_middle.1 h.distinct).1
  obtain ⟨later, -, hturn⟩ := hin.turn turn
  cases hturn with
  | refuse | ready | expire => exact .refl token c
  | submit new hgrant =>
    refine h.orderly.untouched_apply _ (fun hrelease => by cases hrelease) fun hsame => ?_
    exact (Cluster.granted_new hsame).1 hissued
  | release old =>
    refine h.orderly.untouched_apply _ (fun hsame => ?_) fun hgrant => by cases hgrant
    cases hsame
    exact hapart token hin.token?_eq htoken

theorem attemptTurn (h : Accounts ⟨c, before ++ a :: after, returns⟩)
    {t : Thread Q (Except (Failure Q) (Handle Q))} (turn : a.thread.Turn c c' t) :
    Accounts ⟨c', before ++ { a with thread := t } :: after, returns⟩ := by
  obtain ⟨phase, hin, hfits⟩ := h.phases a (mem_middle.2 (.inl rfl))
  have hothers := h.turn_others turn
  obtain ⟨hapart, hdistinct⟩ := nodup_filterMap_middle.1 h.distinct
  obtain ⟨later, hlater, hturn⟩ := hin.turn turn
  have hunheld : a.handle? = none := by
    rw [hin.handle?_eq]
    cases hturn <;> rfl
  cases hturn with
  | refuse =>
    exact h.goOn_same hlater trivial hunheld (hlater.token?_eq.trans hin.token?_eq.symm) h.orderly h.queue
      (fun _ => id) (fun _ => id) hothers
  | ready token hfound =>
    refine h.goOn_same hlater ⟨fun hout => ?_, fun _ => ?_⟩ hunheld
      (hlater.token?_eq.trans hin.token?_eq.symm) h.orderly h.queue (fun _ => id) (fun _ => id) hothers
    · rw [h.not_released (mem_middle.2 (.inl rfl)) hin.token?_eq hunheld] at hout
      cases hout
    · obtain ⟨r, hr, rfl, hbundles, hstrategy⟩ := hfits
      rw [h.orderly.find?_token hr] at hfound
      rcases hfound with hnone | ⟨s, hs, hready⟩
      · cases hnone
      · cases hs
        exact ⟨r, hr, rfl, hbundles, hstrategy, by rw [← h.orderly.ready r hr]; exact hready⟩
  | expire token =>
    exact h.goOn_same hlater hfits hunheld (hlater.token?_eq.trans hin.token?_eq.symm) h.orderly h.queue
      (fun _ => id) (fun _ => id) hothers
  | submit token hgrant =>
    obtain ⟨hnew, hissued⟩ := Cluster.granted_new hgrant
    have htoken : Attempt.token? { a with thread := t } = some token := hlater.token?_eq
    refine h.goOn (h.orderly.apply _) (Cluster.pending_apply h.orderly h.queue _)
      (fun _ => Cluster.issued_apply) hothers ⟨_, hlater, h.orderly.submitted hgrant⟩ hunheld ?_ ?_
    · intro other hother
      rw [htoken] at hother
      cases hother
      exact ⟨hissued, fun hmem => hnew (h.granted token (mem_filterMap_middle.2 (.inr hmem)))⟩
    · intro other hother
      rw [h.orderly.tokens_apply, hgrant, List.mem_append] at hother
      rcases hother with hother | hother
      · have howned := mem_filterMap_middle.1 (h.owned other (List.mem_filter.1 hother).1)
        rw [hin.token?_eq] at howned
        rcases howned with hnone | howned
        · cases hnone
        · exact .inr howned
      · rw [htoken, Option.mem_toList.1 hother]
        exact .inl rfl
  | release token =>
    have htokens := h.orderly.tokens_apply (.release token)
    refine h.goOn_same hlater (fun hmem => ?_) hunheld (hlater.token?_eq.trans hin.token?_eq.symm)
      (h.orderly.apply _) (Cluster.pending_apply h.orderly h.queue _) (fun _ => Cluster.issued_apply)
      (fun other hother => ?_) hothers
    · rw [htokens] at hmem
      simp [Cluster.grant?, Operation.released?] at hmem
    · rw [htokens] at hother
      simp only [Cluster.grant?, Option.toList_none, List.append_nil] at hother
      exact (List.mem_filter.1 hother).1

/-- A new attempt has asked for nothing yet. -/
theorem attempt {s : System Q} (h : Accounts s) {spec : PlacementSpec Q}
    {t : Thread Q (Except (Failure Q) (Handle Q))} (settled : Thread.Settles ⟨[], reserve spec⟩ t) :
    Accounts { s with attempts := s.attempts ++ [⟨spec, t⟩] } := by
  have hin := Attempt.InPhase.begin settled
  have htokens : System.tokens { s with attempts := s.attempts ++ [⟨spec, t⟩] } = s.tokens := by
    simp [System.tokens, hin.token?_eq, Phase.token?]
  refine ⟨h.orderly, h.queue, ?_, ?_, ?_, ?_, ?_⟩
  · intro a ha
    rcases List.mem_append.1 ha with ha | ha
    · exact h.phases a ha
    · rw [List.mem_singleton.1 ha]
      exact ⟨.fresh, hin, trivial⟩
  · rw [htokens]
    exact h.granted
  · rw [htokens]
    exact h.distinct
  · rw [htokens]
    exact h.owned
  · intro r hr
    obtain ⟨hstanding, a, ha, hhandle⟩ := h.returns r hr
    exact ⟨hstanding, a, List.mem_append_left _ ha, hhandle⟩

/-- A release that begins has released nothing yet. -/
theorem giveBack {s : System Q} (h : Accounts s) {a : Attempt Q} (ha : a ∈ s.attempts)
    {handle : Handle Q} (hhandle : a.handle? = some handle) {t : Thread Q Unit}
    (settled : Thread.Settles ⟨[], releaseHandle (some handle)⟩ t) :
    Accounts { s with returns := s.returns ++ [⟨handle, t⟩] } := by
  have hbegin := Return.begin settled
  have hreleased : System.released { s with returns := s.returns ++ [⟨handle, t⟩] } = s.released := by
    funext token
    have hunfinished : t.result? = none := by
      rw [hbegin]
      rfl
    simp [System.released, hunfinished]
  refine ⟨h.orderly, h.queue, ?_, h.granted, h.distinct, h.owned, ?_⟩
  · rw [hreleased]
    exact h.phases
  · intro r hr
    rcases List.mem_append.1 hr with hr | hr
    · exact h.returns r hr
    · rw [List.mem_singleton.1 hr]
      exact ⟨.inl hbegin, a, ha, hhandle⟩

/-- What the cluster does without its clients touches the reservation of none. -/
theorem operation {s : System Q} (h : Accounts s) {op : Operation Q}
    (hrelease : op.released? = none) (hgrant : s.cluster.grant? op = none) :
    Accounts { s with cluster := s.cluster.apply op } := by
  have hsame : ∀ token, Cluster.Untouched token s.cluster (s.cluster.apply op) := fun token =>
    h.orderly.untouched_apply op (by rw [hrelease]; exact fun h => by cases h)
      (by rw [hgrant]; exact fun h => by cases h)
  refine ⟨h.orderly.apply op, Cluster.pending_apply h.orderly h.queue op, ?_, ?_, h.distinct, ?_, h.returns⟩
  · intro a ha
    obtain ⟨phase, hin, hfits⟩ := h.phases a ha
    exact ⟨phase, hin, hfits.untouched fun token _ => ⟨hsame token, rfl⟩⟩
  · exact fun token htoken => Cluster.issued_apply (h.granted token htoken)
  · exact fun token htoken => h.owned token ((hsame token).absent htoken)

end System.Accounts

/-! ## The turn of a release -/

namespace System.Accounts

variable {c c' : Cluster Q} {attempts : List (Attempt Q)} {before after : List (Return Q)} {r : Return Q}
  {t : Thread Q Unit}

/-- After its turn a release has released its token, besides those released before. -/
theorem released_returnTurn (c c' : Cluster Q) (attempts : List (Attempt Q)) (before after : List (Return Q))
    (r : Return Q) (hdone : t.result?.isSome) (token : Token) :
    System.released ⟨c', attempts, before ++ { r with thread := t } :: after⟩ token
      = (System.released ⟨c, attempts, before ++ r :: after⟩ token || r.handle.token = token) := by
  by_cases htoken : r.handle.token = token
  · simp [System.released, hdone, htoken]
  · simp [System.released, htoken]

theorem returnTurn (h : Accounts ⟨c, attempts, before ++ r :: after⟩)
    (turn : r.thread.Turn c c' t) :
    Accounts ⟨c', attempts, before ++ { r with thread := t } :: after⟩ := by
  have hmiddle : ∀ {q x : Return Q}, q ∈ before ++ x :: after ↔ q = x ∨ q ∈ before ++ after := by
    intro q x
    rw [List.perm_middle.mem_iff, List.mem_cons]
  obtain ⟨hstanding, a, ha, hhandle⟩ := h.returns r (hmiddle.2 (.inl rfl))
  obtain ⟨rfl, hdone⟩ := hstanding.turn turn
  have hreleased := released_returnTurn c (c.apply (.release r.handle.token)) attempts before after r hdone
  have htokens := h.orderly.tokens_apply (.release r.handle.token)
  simp only [Cluster.grant?, Operation.released?, Option.toList_none, List.append_nil] at htokens
  refine ⟨h.orderly.apply (.release r.handle.token), Cluster.pending_apply h.orderly h.queue _,
    ?_, ?_, h.distinct, ?_, ?_⟩
  · intro b hb
    obtain ⟨phase, hin, hfits⟩ := h.phases b hb
    refine ⟨phase, hin, ?_⟩
    by_cases hown : phase.token? = some r.handle.token
    · -- the token is that of the attempt that returned the handle
      obtain ⟨_, hina, -⟩ := h.phases a ha
      have htoken : a.token? = some r.handle.token := by
        rw [hina.token?_eq, (holding_of_handle? hina hhandle).1]
        rfl
      cases eq_of_token? h.distinct ha hb htoken (hin.token?_eq.trans hown)
      rw [(holding_of_handle? hin hhandle).1]
      refine ⟨fun _ hmem => ?_, fun hout => ?_⟩
      · rw [htokens] at hmem
        simp at hmem
      · rw [hreleased] at hout
        simp at hout
    · refine hfits.untouched fun token htoken => ⟨?_, ?_⟩
      · refine h.orderly.untouched_apply (.release r.handle.token) (fun hsame => hown ?_)
          fun hgrant => by cases hgrant
        rw [htoken, ← hsame]
        rfl
      · have hne : r.handle.token ≠ token := fun hsame => hown (by rw [htoken, hsame])
        rw [hreleased, decide_eq_false hne, Bool.or_false]
  · exact fun token htoken => Cluster.issued_apply (h.granted token htoken)
  · intro token htoken
    simp only [htokens] at htoken
    exact h.owned token (List.mem_filter.1 htoken).1
  · intro q hq
    rcases hmiddle.1 hq with rfl | hq
    · exact ⟨.inr hdone, a, ha, hhandle⟩
    · exact h.returns q (hmiddle.2 (.inr hq))

end System.Accounts

end ActorPlacement
