import ActorPlacement.Cluster.Alone
import ActorPlacement.Proofs.Cluster.Frame

/-!
# Tokens that are done with

A token is granted once, since the tokens of a run are numbered one after the other. So a token that was
released names no reservation for the rest of the run (`notMem_tokens_run`), and a scheduler that is asked
about it says so (`Unknown`). A submission adds its reservation beside those that are live.
-/

namespace ActorPlacement.Cluster

variable {Q : Type}

theorem find?_eq_none_iff {c : Cluster Q} {token : Token} : c.find? token = none ↔ token ∉ c.tokens := by
  simp [find?, tokens]

variable [Quantity Q] {c : Cluster Q} {token : Token}

/-- Nobody has the token: to wait for it fails at once, it has no nodes, and to release it succeeds and
changes nothing. -/
structure Unknown (c : Cluster Q) (token : Token) : Prop where
  wait : ∀ timeout, answerAlone (.wait token timeout) c = (.error (.unknownReservation token), c)
  assignment : c.assignment? token = none
  release : answerAlone (.release token) c = (.ok (), c)

theorem unknown_of_notMem (h : token ∉ c.tokens) : c.Unknown token := by
  have hnone := find?_eq_none_iff.2 h
  constructor
  case wait => simp [answerAlone, look, hnone]
  case assignment => simp [assignment?, hnone]
  case release => simp [answerAlone, release_of_unknown hnone]

/-! ## Tokens along a run -/

theorem granted_append (c : Cluster Q) (ops later : List (Operation Q)) :
    c.granted (ops ++ later) = c.granted ops ++ (c.run ops).granted later := by
  induction ops generalizing c with
  | nil => rfl
  | cons op rest ih => rw [List.cons_append, granted, granted, ih, run_cons, List.append_assoc]

/-- A token that was issued is not granted again. -/
theorem notMem_granted_of_issued (h : token ∈ c.issuedTokens) (ops : List (Operation Q)) :
    token ∉ c.granted ops := by
  have hnodup := (c.run ops).issuedTokens_nodup
  rw [issuedTokens_run, List.nodup_append] at hnodup
  exact fun hmem => hnodup.2.2 token h token hmem rfl

/-- A token that names no reservation goes on to name none unless it is granted. -/
theorem Orderly.notMem_tokens_run (h : Orderly c) (habsent : token ∉ c.tokens)
    {ops : List (Operation Q)} (hgranted : token ∉ c.granted ops) : token ∉ (c.run ops).tokens := by
  induction ops generalizing c with
  | nil => exact habsent
  | cons op rest ih =>
    rw [granted, List.mem_append, not_or] at hgranted
    refine ih (h.apply op) ?_ hgranted.2
    rw [h.tokens_apply, List.mem_append, not_or]
    exact ⟨fun hmem => habsent (List.mem_filter.1 hmem).1, hgranted.1⟩

theorem Orderly.notMem_tokens_release (h : Orderly c) (token : Token) :
    token ∉ (c.apply (.release token)).tokens := by
  rw [h.tokens_apply]
  simp [Operation.released?, grant?]

/-- **A token is used once, and its release is final.** In every run from a cluster that was just built the
granted tokens are distinct, as many as the counter says. A submission leaves every live reservation what
it is and adds the token that it grants. And whatever the run goes on with after the release of a token,
the token is unknown in the end, if it was granted before or is granted nowhere in the run. -/
theorem tokens_final_run (h : Built c) (ops : List (Operation Q)) :
    (c.granted ops).Nodup
      ∧ (c.run ops).issued = (c.granted ops).length
      ∧ (∀ bundles strategy,
          let next := (c.run ops).apply (.submit bundles strategy)
          next.tokens = (c.run ops).tokens ++ ((c.run ops).grant? (.submit bundles strategy)).toList
            ∧ next.tokens.Nodup ∧ ∀ r ∈ (c.run ops).reservations, ∃ s ∈ next.reservations, r.Becomes s)
      ∧ ∀ before token after, ops = before ++ .release token :: after →
          token ∈ c.granted before ∨ token ∉ c.granted ops → (c.run ops).Unknown token := by
  have hissued : ∀ done, (c.run done).issuedTokens = c.granted done := by
    intro done
    rw [issuedTokens_run, issuedTokens, h.unused.issued]
    rfl
  have horderly : ∀ done, Orderly (c.run done) := orderly_run h
  refine ⟨?_, ?_, fun bundles strategy => ⟨?_, ?_, fun r hr => ?_⟩, ?_⟩
  · rw [← hissued]
    exact issuedTokens_nodup _
  · rw [← hissued, issuedTokens, List.length_map, List.length_range']
  · rw [(horderly ops).tokens_apply, List.filter_eq_self.2]
    intro token _
    simp [Operation.released?]
  · exact ((horderly ops).apply _).tokens_nodup
  · have hkeeps : Keeps r.token (c.run ops) ((c.run ops).apply (.submit bundles strategy)) :=
      (horderly ops).keeps_apply (by simp [Operation.released?])
    exact hkeeps r hr rfl
  · rintro before token after rfl hused
    -- the run up to the release, the release, and whatever comes after it
    have hafter : token ∉ ((c.run before).apply (.release token)).granted after := by
      rcases hused with hbefore | hnowhere
      · rw [← hissued] at hbefore
        exact notMem_granted_of_issued (issued_apply hbefore) after
      · rw [granted_append, granted] at hnowhere
        intro hmem
        exact hnowhere (List.mem_append_right _ (List.mem_append_right _ hmem))
    rw [run_append, run_cons]
    exact unknown_of_notMem (((horderly before).apply _).notMem_tokens_run
      ((horderly before).notMem_tokens_release token) hafter)

/-- A token that is released stays unknown while another reservation takes its place and a third is granted
a token. -/
theorem tokens_final_run_replaced :
    let cpus (q : Rat) : Bundle Rat := NameMap.empty.insert "CPU" q
    let c : Cluster Rat := ofNodes [Node.idle "n" (cpus 1) false]
    let submit : Operation Rat := .submit [cpus 1] .pack
    let before := [submit, submit]
    let ops := before ++ .release (.numbered 1) :: [submit, .release (.numbered 1)]
    Built c ∧ .numbered 1 ∈ c.granted before ∧ (c.run ops).tokens = [.numbered 2, .numbered 3]
      ∧ (c.run ops).Unknown (.numbered 1) := by
  intro cpus c submit before ops
  have hbuilt : Built c := .ofNodes _ (by simp [Node.idle])
  have hgranted : .numbered 1 ∈ c.granted before := by decide +kernel
  have hfinal := (tokens_final_run hbuilt ops).2.2.2 before (.numbered 1) _ rfl (.inl hgranted)
  exact ⟨hbuilt, hgranted, by decide +kernel, hfinal⟩

end ActorPlacement.Cluster
