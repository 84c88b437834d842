import ActorPlacement.Proofs.Cluster.Conservation
import ActorPlacement.Proofs.Cluster.Queue

/-!
# Passes over the queue

Most operations end with a pass over the queue, and a pass tries one token after the other. `Passing` says
how a cluster stands in the middle of a pass: the tokens that were tried in vain and those still to be
tried are the ones that wait, in this order. What trying one token keeps and what holds when a pass begins
then holds after every run (`KeptByPasses.run`).
-/

namespace ActorPlacement.Cluster

variable {c : Cluster Rat} {token : Token} {todo : List Token} {P : Cluster Rat → Prop}

/-- A cluster in the middle of a pass with tokens still to be tried. Between operations there are none. -/
structure Passing (c : Cluster Rat) (todo : List Token) : Prop where
  orderly : Orderly c
  balanced : Balanced c
  queue : c.pending ++ todo = c.waiting

/-- What an operation does before it tries anybody, and what an attempt does, keeps `P`. -/
structure KeptByPasses (P : Cluster Rat → Prop) : Prop where
  join : ∀ {c}, Passing c [] → P c → ∀ id resources draining, c.hasNode id = false →
    P { c with nodes := c.nodes ++ [Node.idle id resources draining], pending := [] }
  drain : ∀ {c}, Passing c [] → P c → ∀ place,
    P { c with nodes := c.nodes.modify place fun n => { n with draining := true } }
  reopen : ∀ {c}, Passing c [] → P c → ∀ place,
    P { c with nodes := c.nodes.modify place fun n => { n with draining := false }, pending := [] }
  enlist : ∀ {c}, Passing c [] → P c → ∀ bundles strategy, c.refusal? bundles strategy = none →
    P (c.enlist bundles strategy)
  drop : ∀ {c}, Passing c [] → P c → ∀ r, c.find? r.token = some r → P { c.drop r with pending := [] }
  retry : ∀ {c token todo}, Passing c (token :: todo) → P c → P (c.retry token)

theorem Passing.pending_eq (h : Passing c []) : c.pending = c.waiting := by
  rw [← h.queue, List.append_nil]

/-- Orderly and balanced clusters stay so, whatever is done to them. -/
theorem orderly_balanced_moves {c' : Cluster Rat} (hmoves : Moves c c') (horderly : Orderly c)
    (hbalanced : Balanced c) : Orderly c' ∧ Balanced c' :=
  hmoves.invariant (P := fun c => Orderly c ∧ Balanced c)
    (fun hmove h => ⟨h.1.move hmove, h.2.move hmove h.1⟩) ⟨horderly, hbalanced⟩

theorem Passing.retry (h : Passing c (token :: todo)) : Passing (c.retry token) todo := by
  obtain ⟨horderly, hbalanced⟩ := orderly_balanced_moves (retry_moves c token) h.orderly h.balanced
  exact ⟨horderly, hbalanced, pending_retry h.orderly token todo h.queue⟩

theorem Passing.apply (h : Passing c []) (op : Operation Rat) : Passing (c.apply op) [] := by
  obtain ⟨horderly, hbalanced⟩ := orderly_balanced_moves (apply_moves c op) h.orderly h.balanced
  refine ⟨horderly, hbalanced, ?_⟩
  rw [List.append_nil, pending_apply h.orderly h.pending_eq op]

theorem passing_run (h : Built c) (ops : List (Operation Rat)) : Passing (c.run ops) [] where
  orderly := orderly_run h ops
  balanced := balanced_run h ops
  queue := by rw [List.append_nil, pending_run h ops]

/-- What every attempt keeps holds after a pass if it does when the pass begins. -/
theorem KeptByPasses.foldl (hP : KeptByPasses P) (hpassing : Passing c todo) (h : P c) :
    P (todo.foldl Cluster.retry c) := by
  induction todo generalizing c with
  | nil => exact h
  | cons token rest ih => exact ih hpassing.retry (hP.retry hpassing h)

theorem KeptByPasses.retryPending (hP : KeptByPasses P) (horderly : Orderly c) (hbalanced : Balanced c)
    (hqueue : c.pending = c.waiting) (h : P { c with pending := [] }) : P c.retryPending :=
  hP.foldl ⟨horderly.move (.queue c []), hbalanced.move (.queue c []) horderly, hqueue⟩ h

theorem KeptByPasses.apply (hP : KeptByPasses P) (hc : Passing c []) (h : P c) (op : Operation Rat) :
    P (c.apply op) := by
  have hmoved : ∀ {c'}, Move c c' → Orderly c' ∧ Balanced c' := fun hmove =>
    orderly_balanced_moves (.single hmove) hc.orderly hc.balanced
  have heffect := effect_apply c op
  generalize c.apply op = c', c.grant? op = granted at heffect ⊢
  cases heffect with
  | taken | nobody | refuse | unknown => exact h
  | drain id place => exact hP.drain hc h place
  | join id resources draining new =>
    obtain ⟨horderly, hbalanced⟩ := hmoved (.join c id resources draining new)
    exact hP.retryPending horderly hbalanced hc.pending_eq (hP.join hc h id resources draining new)
  | reopen id place =>
    obtain ⟨horderly, hbalanced⟩ := hmoved (.drain c place false)
    exact hP.retryPending horderly hbalanced hc.pending_eq (hP.reopen hc h place)
  | accept bundles strategy accepted =>
    obtain ⟨horderly, hbalanced⟩ := hmoved (.enlist c bundles strategy accepted)
    have hpassing : Passing (c.enlist bundles strategy) [.numbered (c.issued + 1)] := by
      refine ⟨horderly, hbalanced, ?_⟩
      rw [hc.orderly.waiting_enlist, ← hc.pending_eq]
      rfl
    exact hP.retry hpassing (hP.enlist hc h bundles strategy accepted)
  | free r live =>
    obtain ⟨horderly, hbalanced⟩ := hmoved (.drop c r live)
    exact hP.retryPending (horderly.move (.queue _ (c.queueWithout r)))
      (hbalanced.move (.queue _ (c.queueWithout r)) horderly)
      (queueWithout_eq_waiting hc.orderly hc.pending_eq live) (hP.drop hc h r live)

/-- What passes keep holds after every run. -/
theorem KeptByPasses.run (hP : KeptByPasses P) (hbuilt : Built c) (hstart : P c)
    (ops : List (Operation Rat)) : P (c.run ops) := by
  have hboth := run_induction (P := fun c => Passing c [] ∧ P c)
    (fun c op hc => ⟨hc.1.apply op, hP.apply hc.1 hc.2 op⟩) ⟨passing_run hbuilt [], hstart⟩ ops
  exact hboth.2

end ActorPlacement.Cluster
