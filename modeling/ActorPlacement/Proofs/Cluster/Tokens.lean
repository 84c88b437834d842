import ActorPlacement.Proofs.Cluster.Moves
import Mathlib.Data.List.Nodup

/-!
# Tokens

Tokens are numbered in the order of the accepted submissions, and a number can be read back from its
token (`Token.numbered_injective`), so no token is granted twice. `issuedTokens_run` ties the counter of a
cluster to the tokens that a run has granted.
-/

namespace ActorPlacement

/-- A token determines its number, however many digits it has. -/
theorem Token.numbered_injective : Function.Injective Token.numbered := by
  intro m n h
  have hread : ∀ k, Nat.ofDigitChars 10 ((Token.numbered k).text.toList.drop 3) 0 = k := by
    intro k
    have hhead : "pg-".toList = ['p', 'g', '-'] := rfl
    simp only [Token.numbered, String.toList_append, String.toList_ofList, hhead]
    -- the zeros in front of the digits count for nothing
    simp [Nat.ofDigitChars_append, Decimal.digitsOf]
  rw [← hread m, ← hread n, h]

namespace Cluster

variable {Q : Type} [Quantity Q]

omit [Quantity Q] in
/-- The tokens issued so far, in their order. -/
def issuedTokens (c : Cluster Q) : List Token := (List.range' 1 c.issued).map Token.numbered

omit [Quantity Q] in
theorem issuedTokens_nodup (c : Cluster Q) : c.issuedTokens.Nodup :=
  (List.nodup_range' (s := 1) (n := c.issued)).map Token.numbered_injective

omit [Quantity Q] in
theorem numbered_notMem_issuedTokens (c : Cluster Q) {n : Nat} (h : c.issued < n) :
    Token.numbered n ∉ c.issuedTokens := by
  intro hmem
  obtain ⟨m, hm, heq⟩ := List.mem_map.1 hmem
  have := Token.numbered_injective heq
  have := List.mem_range'_1.1 hm
  omega

omit [Quantity Q] in
theorem issuedTokens_of_issued_succ {c d : Cluster Q} (h : d.issued = c.issued + 1) :
    d.issuedTokens = c.issuedTokens ++ [Token.numbered (c.issued + 1)] := by
  rw [issuedTokens, issuedTokens, h, List.range'_1_concat, List.map_append, Nat.add_comm 1 c.issued]
  rfl

/-! ## The counter along a run -/

theorem issued_retry (c : Cluster Q) (token : Token) : (c.retry token).issued = c.issued := by
  rcases retry_cases c token with ⟨heq, -⟩ | ⟨heq, -⟩ | ⟨r, places, -, -, -, heq⟩ <;> rw [heq]
  rfl

theorem issued_retryPending (c : Cluster Q) : c.retryPending.issued = c.issued :=
  retryPending_induction (P := fun d => d.issued = c.issued)
    (fun d token hd => (issued_retry d token).trans hd) rfl

/-- The counter counts the granted tokens. -/
theorem issuedTokens_apply (c : Cluster Q) (op : Operation Q) :
    (c.apply op).issuedTokens = c.issuedTokens ++ (c.grant? op).toList := by
  have hsame : ∀ {d : Cluster Q}, d.issued = c.issued → d.issuedTokens = c.issuedTokens ++ [] := by
    intro d hd
    rw [issuedTokens, hd, List.append_nil]
    rfl
  have heffect := effect_apply c op
  generalize c.apply op = c', c.grant? op = granted at heffect ⊢
  cases heffect with
  | taken | nobody | refuse | unknown | drain => exact hsame rfl
  | join | reopen | free => exact hsame (issued_retryPending _)
  | accept => exact issuedTokens_of_issued_succ (issued_retry _ _)

theorem issuedTokens_run (c : Cluster Q) (ops : List (Operation Q)) :
    (c.run ops).issuedTokens = c.issuedTokens ++ c.granted ops := by
  induction ops generalizing c with
  | nil => simp [granted]
  | cons op rest ih => rw [run_cons, ih, issuedTokens_apply, granted, List.append_assoc]

/-- A run grants at most one token for every submission. -/
theorem length_granted_le (c : Cluster Q) (ops : List (Operation Q)) :
    (c.granted ops).length ≤ ops.countP Operation.isSubmit := by
  induction ops generalizing c with
  | nil => exact Nat.le_refl 0
  | cons op rest ih =>
    rw [granted, List.length_append, List.countP_cons]
    have hrest := ih (c.apply op)
    cases op with
    | submit bundles strategy =>
      have hone : ((c.grant? (.submit bundles strategy)).toList).length ≤ 1 := by
        cases c.grant? (.submit bundles strategy) <;> simp
      simp only [Operation.isSubmit, if_true]
      omega
    | addNode | setDraining | release => simpa [grant?, Operation.isSubmit] using hrest

end Cluster

end ActorPlacement
