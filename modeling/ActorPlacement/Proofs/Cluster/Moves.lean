import ActorPlacement.Cluster.Run
import ActorPlacement.Proofs.Results
import Mathlib.Logic.Relation

/-!
# What an operation can do

`Effect` lists what an operation can do, with what it grants, and `effect_apply` says that this is all.
Every operation is a sequence of a few kinds of moves (`apply_moves`): a node joins, a node starts or
stops draining, a reservation is enlisted, placed or dropped, and the queue of pending tokens is
rewritten. An invariant that says nothing of the queue is therefore proved once for each kind of move
(`run_invariant`), however many reservations an operation places.
-/

namespace ActorPlacement.Cluster

variable {Q : Type} [Quantity Q]

/-- The cluster with a new reservation under the next token, not placed yet. -/
def enlist (c : Cluster Q) (bundles : List (Bundle Q)) (strategy : Strategy) : Cluster Q :=
  let token := Token.numbered (c.issued + 1)
  { c with
    issued := c.issued + 1
    reservations := (c.reservations.filter fun r => r.token ≠ token)
      ++ [{ token, bundles, strategy, assignment := none, ready := false }] }

/-- The cluster with a reservation on its planned places. -/
def placeAt (c : Cluster Q) (r : Reservation Q) (places : List Nat) : Cluster Q :=
  { c with
    nodes := takeAll c.nodes (r.bundles.zip places)
    reservations := c.markPlaced r.token places }

/-- The cluster without a reservation, which gave back what it held. -/
def drop (c : Cluster Q) (r : Reservation Q) : Cluster Q :=
  { c with
    nodes := r.assignment.elim c.nodes fun places => giveAll c.nodes (r.bundles.zip places)
    reservations := c.reservations.filter fun s => s.token ≠ r.token }

/-- One change to nodes, reservations or the queue. -/
inductive Move : Cluster Q → Cluster Q → Prop where
  | queue (c : Cluster Q) (pending : List Token) : Move c { c with pending }
  | join (c : Cluster Q) (id : String) (resources : Bundle Q) (draining : Bool)
      (new : c.hasNode id = false) :
    Move c { c with nodes := c.nodes ++ [Node.idle id resources draining] }
  | drain (c : Cluster Q) (place : Nat) (draining : Bool) :
    Move c { c with nodes := c.nodes.modify place fun n => { n with draining } }
  | enlist (c : Cluster Q) (bundles : List (Bundle Q)) (strategy : Strategy)
      (accepted : c.refusal? bundles strategy = none) : Move c (c.enlist bundles strategy)
  | place (c : Cluster Q) (r : Reservation Q) (places : List Nat) (live : c.find? r.token = some r)
      (waiting : r.assignment = none) (planned : plan? c.nodes r.bundles r.strategy = some places) :
    Move c (c.placeAt r places)
  | drop (c : Cluster Q) (r : Reservation Q) (live : c.find? r.token = some r) : Move c (c.drop r)

/-- A sequence of moves. -/
abbrev Moves : Cluster Q → Cluster Q → Prop := Relation.ReflTransGen Move

omit [Quantity Q] in
theorem token_of_find? {c : Cluster Q} {token : Token} {r : Reservation Q}
    (h : c.find? token = some r) : r.token = token := by
  simpa using List.find?_some h

omit [Quantity Q] in
theorem mem_of_find? {c : Cluster Q} {token : Token} {r : Reservation Q}
    (h : c.find? token = some r) : r ∈ c.reservations :=
  List.mem_of_find?_eq_some h

/-! ## Trying to place -/

/-- A reservation that is tried is placed already, is placed by the attempt, or nothing changes. -/
theorem tryPlace_cases (c : Cluster Q) (token : Token) :
    (c.tryPlace token = (c, false)
        ∧ (c.find? token = none
          ∨ ∃ r, c.find? token = some r ∧ r.assignment = none
              ∧ plan? c.nodes r.bundles r.strategy = none))
      ∨ (c.tryPlace token = (c, true) ∧ ∃ r, c.find? token = some r ∧ r.assignment.isSome)
      ∨ ∃ r places, c.find? token = some r ∧ r.assignment = none
          ∧ plan? c.nodes r.bundles r.strategy = some places
          ∧ c.tryPlace token = (c.placeAt r places, true) := by
  cases hfind : c.find? token with
  | none => exact .inl ⟨by simp [tryPlace, hfind], .inl rfl⟩
  | some r =>
    have htoken := token_of_find? hfind
    cases hassigned : r.assignment with
    | some places => exact .inr (.inl ⟨by simp [tryPlace, hfind, hassigned], r, rfl, by simp [hassigned]⟩)
    | none =>
      cases hplan : plan? c.nodes r.bundles r.strategy with
      | none => exact .inl ⟨by simp [tryPlace, hfind, hassigned, hplan], .inr ⟨r, rfl, hassigned, hplan⟩⟩
      | some places =>
        refine .inr (.inr ⟨r, places, rfl, hassigned, hplan, ?_⟩)
        simp [tryPlace, hfind, hassigned, hplan, placeAt, htoken]

/-- Who is tried in vain goes to the end of the queue. -/
theorem retry_cases (c : Cluster Q) (token : Token) :
    (c.retry token = { c with pending := c.pending ++ [token] }
        ∧ (c.find? token = none
          ∨ ∃ r, c.find? token = some r ∧ r.assignment = none
              ∧ plan? c.nodes r.bundles r.strategy = none))
      ∨ (c.retry token = c ∧ ∃ r, c.find? token = some r ∧ r.assignment.isSome)
      ∨ ∃ r places, c.find? token = some r ∧ r.assignment = none
          ∧ plan? c.nodes r.bundles r.strategy = some places ∧ c.retry token = c.placeAt r places := by
  rcases tryPlace_cases c token with ⟨heq, hwhy⟩ | ⟨heq, hplaced⟩ | ⟨r, places, hfind, hwaiting, hplan, heq⟩
  · exact .inl ⟨by simp [retry, heq], hwhy⟩
  · exact .inr (.inl ⟨by simp [retry, heq], hplaced⟩)
  · exact .inr (.inr ⟨r, places, hfind, hwaiting, hplan, by simp [retry, heq]⟩)

theorem retry_moves (c : Cluster Q) (token : Token) : Moves c (c.retry token) := by
  rcases retry_cases c token with ⟨heq, -⟩ | ⟨heq, -⟩ | ⟨r, places, hfind, hwaiting, hplan, heq⟩
  · rw [heq]
    exact .single (.queue c _)
  · rw [heq]
  · rw [heq]
    exact .single (.place c r places (by rw [token_of_find? hfind, hfind]) hwaiting hplan)

/-- What trying one token keeps holds after a pass over the queue. -/
theorem retryPending_induction {P : Cluster Q → Prop} (hretry : ∀ c token, P c → P (c.retry token))
    {c : Cluster Q} (hc : P { c with pending := [] }) : P c.retryPending :=
  List.foldlRecOn c.pending retry hc fun d hd token _ => hretry d token hd

theorem retryPending_moves (c : Cluster Q) : Moves c c.retryPending :=
  retryPending_induction (P := Moves c) (fun d token hd => hd.trans (retry_moves d token))
    (.single (.queue c []))

/-! ## The operations -/

theorem addNode_of_new {c : Cluster Q} {node : Node Q} (h : c.hasNode node.id = false) :
    c.addNode node = ({ c with nodes := c.nodes ++ [node] }.retryPending, true) := by
  simp [addNode, join, h]

theorem addNode_of_taken {c : Cluster Q} {node : Node Q} (h : c.hasNode node.id = true) :
    c.addNode node = (c, false) := by
  simp [addNode, join, h]

/-- An accepted submission enlists a reservation under the next token and tries to place it. -/
theorem submit_of_accepted {c : Cluster Q} {bundles : List (Bundle Q)} {strategy : Strategy}
    (h : c.refusal? bundles strategy = none) :
    c.submit bundles strategy
      = ((c.enlist bundles strategy).retry (Token.numbered (c.issued + 1)),
          .ok (Token.numbered (c.issued + 1))) := by
  simp [submit, h, enlist]

theorem submit_of_refused {c : Cluster Q} {bundles : List (Bundle Q)} {strategy : Strategy}
    {why : Refusal Q} (h : c.refusal? bundles strategy = some why) :
    c.submit bundles strategy = (c, .error why) := by
  simp [submit, h]

/-- What is not granted changes nothing. -/
theorem submit_of_grant?_eq_none {c : Cluster Q} {bundles : List (Bundle Q)} {strategy : Strategy}
    (h : c.grant? (.submit bundles strategy) = none) : (c.submit bundles strategy).1 = c := by
  cases hrefusal : c.refusal? bundles strategy with
  | some why => rw [submit_of_refused hrefusal]
  | none =>
    rw [grant?, submit_of_accepted hrefusal] at h
    cases h

theorem submit_of_grant?_eq_some {c : Cluster Q} {bundles : List (Bundle Q)} {strategy : Strategy}
    {token : Token} (h : c.grant? (.submit bundles strategy) = some token) :
    c.submit bundles strategy = (c.apply (.submit bundles strategy), .ok token) :=
  Prod.ext rfl (except_toOption_eq_some.1 h)

/-- Only what is not refused is granted. -/
theorem refusal?_of_grant? {c : Cluster Q} {bundles : List (Bundle Q)} {strategy : Strategy}
    {token : Token} (h : c.grant? (.submit bundles strategy) = some token) :
    c.refusal? bundles strategy = none := by
  cases hrefusal : c.refusal? bundles strategy with
  | none => rfl
  | some why =>
    rw [grant?, submit_of_refused hrefusal] at h
    cases h

/-- The queue that a release leaves before it tries the pending reservations again. -/
def queueWithout (c : Cluster Q) (r : Reservation Q) : List Token :=
  if r.assignment.isSome then c.pending else c.pending.filter fun t => t ≠ r.token

theorem release_of_live {c : Cluster Q} {token : Token} {r : Reservation Q}
    (h : c.find? token = some r) :
    c.release token = { c.drop r with pending := c.queueWithout r }.retryPending := by
  have htoken := token_of_find? h
  subst htoken
  cases hassigned : r.assignment <;> simp [release, h, hassigned, drop, queueWithout]

theorem release_of_unknown {c : Cluster Q} {token : Token} (h : c.find? token = none) :
    c.release token = c := by
  simp [release, h]

/-- What an operation can do, and which token it grants. -/
inductive Effect (c : Cluster Q) : Operation Q → Cluster Q → Option Token → Prop where
  | taken (id : String) (resources : Bundle Q) (draining : Bool) (known : c.hasNode id = true) :
    Effect c (.addNode id resources draining) c none
  | join (id : String) (resources : Bundle Q) (draining : Bool) (new : c.hasNode id = false) :
    Effect c (.addNode id resources draining)
      { c with nodes := c.nodes ++ [Node.idle id resources draining] }.retryPending none
  | nobody (id : String) (draining : Bool) (absent : (c.nodes.findIdx? fun n => n.id == id) = none) :
    Effect c (.setDraining id draining) c none
  | drain (id : String) (place : Nat) (found : (c.nodes.findIdx? fun n => n.id == id) = some place) :
    Effect c (.setDraining id true)
      { c with nodes := c.nodes.modify place fun n => { n with draining := true } } none
  | reopen (id : String) (place : Nat) (found : (c.nodes.findIdx? fun n => n.id == id) = some place) :
    Effect c (.setDraining id false)
      { c with nodes := c.nodes.modify place fun n => { n with draining := false } }.retryPending none
  | refuse (bundles : List (Bundle Q)) (strategy : Strategy) (why : Refusal Q)
      (refused : c.refusal? bundles strategy = some why) : Effect c (.submit bundles strategy) c none
  | accept (bundles : List (Bundle Q)) (strategy : Strategy)
      (accepted : c.refusal? bundles strategy = none) :
    Effect c (.submit bundles strategy)
      ((c.enlist bundles strategy).retry (.numbered (c.issued + 1))) (some (.numbered (c.issued + 1)))
  | unknown (token : Token) (absent : c.find? token = none) : Effect c (.release token) c none
  | free (r : Reservation Q) (live : c.find? r.token = some r) :
    Effect c (.release r.token) { c.drop r with pending := c.queueWithout r }.retryPending none

/-- An operation does one of these things. -/
theorem effect_apply (c : Cluster Q) (op : Operation Q) : Effect c op (c.apply op) (c.grant? op) := by
  cases op with
  | addNode id resources draining =>
    simp only [apply, grant?]
    cases hnew : c.hasNode id with
    | true =>
      rw [addNode_of_taken hnew]
      exact .taken id resources draining hnew
    | false =>
      rw [addNode_of_new hnew]
      exact .join id resources draining hnew
  | setDraining id draining =>
    simp only [apply, grant?, setDraining]
    split
    · rename_i absent
      exact .nobody id draining absent
    · rename_i place found
      cases draining with
      | true => exact .drain id place found
      | false => exact .reopen id place found
  | submit bundles strategy =>
    cases hrefusal : c.refusal? bundles strategy with
    | some why =>
      simp only [apply, grant?, submit_of_refused hrefusal]
      exact .refuse bundles strategy why hrefusal
    | none =>
      simp only [apply, grant?, submit_of_accepted hrefusal]
      exact .accept bundles strategy hrefusal
  | release token =>
    simp only [apply, grant?]
    cases hfind : c.find? token with
    | none =>
      rw [release_of_unknown hfind]
      exact .unknown token hfind
    | some r =>
      obtain rfl := token_of_find? hfind
      rw [release_of_live hfind]
      exact .free r hfind

/-- Every operation is a sequence of moves. -/
theorem apply_moves (c : Cluster Q) (op : Operation Q) : Moves c (c.apply op) := by
  have heffect := effect_apply c op
  generalize c.apply op = c', c.grant? op = granted at heffect ⊢
  cases heffect with
  | taken | nobody | refuse | unknown => exact .refl
  | join id resources draining new => exact .head (.join c id resources draining new) (retryPending_moves _)
  | drain id place => exact .single (.drain c place true)
  | reopen id place => exact .head (.drain c place false) (retryPending_moves _)
  | accept bundles strategy accepted => exact .head (.enlist c bundles strategy accepted) (retry_moves _ _)
  | free r live => exact .head (.drop c r live) (.head (.queue _ _) (retryPending_moves _))

/-! ## Invariants -/

theorem Moves.invariant {P : Cluster Q → Prop} (hmove : ∀ {c c'}, Move c c' → P c → P c')
    {c c' : Cluster Q} (h : Moves c c') (hc : P c) : P c' := by
  induction h with
  | refl => exact hc
  | tail _ hlast ih => exact hmove hlast ih

@[simp] theorem run_nil (c : Cluster Q) : c.run [] = c := rfl

theorem run_cons (c : Cluster Q) (op : Operation Q) (ops : List (Operation Q)) :
    c.run (op :: ops) = (c.apply op).run ops := rfl

theorem run_append (c : Cluster Q) (ops later : List (Operation Q)) :
    c.run (ops ++ later) = (c.run ops).run later :=
  List.foldl_append

/-- What every operation keeps holds after every run. -/
theorem run_induction {P : Cluster Q → Prop} (hstep : ∀ c op, P c → P (c.apply op)) {c : Cluster Q}
    (hc : P c) (ops : List (Operation Q)) : P (c.run ops) := by
  induction ops generalizing c with
  | nil => exact hc
  | cons op rest ih => exact ih (hstep c op hc)

/-- What every move keeps holds after every run. -/
theorem run_invariant {P : Cluster Q → Prop} (hmove : ∀ {c c'}, Move c c' → P c → P c')
    {c : Cluster Q} (hc : P c) (ops : List (Operation Q)) : P (c.run ops) :=
  run_induction (fun c op => (apply_moves c op).invariant hmove) hc ops

end ActorPlacement.Cluster
