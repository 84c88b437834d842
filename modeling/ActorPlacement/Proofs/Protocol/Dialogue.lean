import ActorPlacement.Protocol.Clients
import ActorPlacement.Protocol.Construct

/-!
# What protocols say

A protocol is taken apart request by request, whatever is answered. `Protocol.Ensures` is what holds of all
that is said and of the result, and `Protocol.ReleasesLast` says that from a release on no answer makes a
difference. Both go through `Protocol.bind`, so each protocol needs one statement about itself, which those
that call it use.
-/

namespace ActorPlacement

variable {Q : Type} [Quantity Q] {α β σ : Type}

namespace Protocol

/-- Whether something was submitted. -/
def Exchange.isSubmit : Exchange Q → Bool
  | ⟨.submit _ _, _⟩ => true
  | _ => false

/-- Whether an actor got its number. -/
def Exchange.isBirth : Exchange Q → Bool
  | ⟨.nextActor, _⟩ => true
  | _ => false

/-- The token that was given back, if one was. -/
def Exchange.released? : Exchange Q → Option Token
  | ⟨.release token, _⟩ => some token
  | _ => none

/-- What was asked of a scheduler and of a backend. -/
structure Calls where
  /-- How often something was submitted. -/
  submits : Nat
  /-- The tokens that submissions were answered with. -/
  grants : List Token
  /-- The tokens that were given back, whether or not the scheduler took them. -/
  releases : List Token
  /-- How many actors got a number. -/
  births : Nat

/-- What was asked in all that was said. -/
def calls (said : List (Exchange Q)) : Calls where
  submits := said.countP Exchange.isSubmit
  grants := said.filterMap Exchange.granted?
  releases := said.filterMap Exchange.released?
  births := said.countP Exchange.isBirth

/-- First one and then the other. -/
def Calls.andThen (first second : Calls) : Calls where
  submits := first.submits + second.submits
  grants := first.grants ++ second.grants
  releases := first.releases ++ second.releases
  births := first.births + second.births

theorem calls_append (said more : List (Exchange Q)) :
    calls (said ++ more) = (calls said).andThen (calls more) := by
  simp [calls, Calls.andThen, List.countP_append, List.filterMap_append]

/-- Whatever is answered, `P` holds of what is said and of the result. -/
def Ensures : Protocol Q α → (List (Exchange Q) → α → Prop) → Prop
  | done result, P => P [] result
  | ask request next, P => ∀ reply,
    (next reply).Ensures fun said result => P (⟨request, reply⟩ :: said) result

/-- Whatever is answered, the result is this one. -/
def EndsIn (result : α) : Protocol Q α → Prop
  | done other => other = result
  | ask _ next => ∀ reply, (next reply).EndsIn result

/-- From a release on, no answer makes a difference to the result, which is then one of `F`. -/
def ReleasesLast (F : α → Prop) : Protocol Q α → Prop
  | done _ => True
  | ask (.release _) next => ∃ result, F result ∧ ∀ reply, (next reply).EndsIn result
  | ask _ next => ∀ reply, (next reply).ReleasesLast F

/-- The same surroundings, but with other answers to releases, which may also do something else. -/
def Surroundings.withReleases (answer : Surroundings Q σ)
    (release : Token → σ → Except (SchedulerError Q) Unit × σ) : Surroundings Q σ
  | .release token, s => release token s
  | request, s => answer request s

variable {p : Protocol Q α} {f : α → Protocol Q β} {P P' : List (Exchange Q) → α → Prop}

/-! ## What is said -/

theorem Ensures.mono (h : p.Ensures P) (hP : ∀ said result, P said result → P' said result) :
    p.Ensures P' := by
  induction p generalizing P P' with
  | done result => exact hP [] result h
  | ask request next ih => exact fun reply => ih reply (h reply) fun said => hP (⟨request, reply⟩ :: said)

theorem Ensures.bind {P : List (Exchange Q) → β → Prop}
    (h : p.Ensures fun said a => (f a).Ensures fun more b => P (said ++ more) b) :
    (p.bind f).Ensures P := by
  induction p generalizing P with
  | done result => exact h
  | ask request next ih => exact fun reply => ih reply (h reply)

/-- What is ensured holds of every run. -/
theorem Ensures.run (h : p.Ensures P) (answer : Surroundings Q σ) (s : σ) :
    P (p.run answer s).exchanges (p.run answer s).result := by
  induction p generalizing P s with
  | done result => exact h
  | ask request next ih => exact ih (answer request s).1 (h (answer request s).1) (answer request s).2

/-- What goes on after a protocol begins where that ended. -/
theorem run_bind (answer : Surroundings Q σ) (p : Protocol Q α) (f : α → Protocol Q β) (s : σ) :
    (p.bind f).run answer s
      = let first := p.run answer s
        let rest := (f first.result).run answer first.state
        { rest with exchanges := first.exchanges ++ rest.exchanges } := by
  induction p generalizing s with
  | done result => rfl
  | ask request next ih =>
    simp only [Protocol.bind, run, ih]
    rfl

/-- A backend that counts its actors has built as many as got a number. -/
theorem births_run (others : Surroundings Q σ) (p : Protocol Q α) (s : σ) (built : Nat) :
    (p.run (countingActors others) (s, built)).state.2
      = built + (calls (p.run (countingActors others) (s, built)).exchanges).births := by
  induction p generalizing s built with
  | done result => rfl
  | ask request next ih =>
    have hcons : ∀ (x : Exchange Q) (said : List (Exchange Q)),
        (calls (x :: said)).births = (calls said).births + if x.isBirth then 1 else 0 :=
      fun x said => List.countP_cons
    cases request with
    | nextActor =>
      refine (ih _ s (built + 1)).trans ?_
      rw [run, hcons]
      simp only [countingActors, Exchange.isBirth, if_true]
      omega
    | submit | wait | release | record | clock | backendUp =>
      refine (ih _ _ built).trans ?_
      rw [run, hcons]
      rfl

/-! ## Releases -/

theorem EndsIn.run {result : α} (h : p.EndsIn result) (answer : Surroundings Q σ) (s : σ) :
    (p.run answer s).result = result := by
  induction p generalizing s with
  | done other => exact h
  | ask request next ih => exact ih (answer request s).1 (h (answer request s).1) (answer request s).2

theorem EndsIn.bind {a : α} {b : β} (h : p.EndsIn a) (hf : (f a).EndsIn b) : (p.bind f).EndsIn b := by
  induction p with
  | done other =>
    cases h
    exact hf
  | ask request next ih => exact fun reply => ih reply (h reply)

theorem ReleasesLast.bind {F : α → Prop} {G : β → Prop} (h : p.ReleasesLast F)
    (hafter : ∀ a, F a → ∃ b, G b ∧ (f a).EndsIn b) (hf : ∀ a, (f a).ReleasesLast G) :
    (p.bind f).ReleasesLast G := by
  induction p with
  | done result => exact hf result
  | ask request next ih =>
    cases request with
    | release token =>
      obtain ⟨a, ha, hends⟩ := h
      obtain ⟨b, hb, hends'⟩ := hafter a ha
      exact ⟨b, hb, fun reply => (hends reply).bind hends'⟩
    | submit | wait | record | clock | backendUp | nextActor => exact fun reply => ih reply (h reply)

/-- Other answers to releases do not change the result. -/
theorem ReleasesLast.run_eq {F : α → Prop} (h : p.ReleasesLast F) (answer : Surroundings Q σ)
    (release : Token → σ → Except (SchedulerError Q) Unit × σ) (s : σ) :
    (p.run (answer.withReleases release) s).result = (p.run answer s).result := by
  induction p generalizing s with
  | done result => rfl
  | ask request next ih =>
    cases request with
    | release token =>
      obtain ⟨result, -, hends⟩ := h
      exact ((hends _).run _ _).trans ((hends _).run _ _).symm
    | submit | wait | record | clock | backendUp | nextActor => exact ih _ (h _) _

end Protocol

end ActorPlacement
