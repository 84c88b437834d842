/-!
# Rounding quotients to whole numbers
-/

namespace ActorPlacement

/-- The whole number nearest to `num / den`; halfway between two of them it is the even one. -/
def roundHalfEven (num den : Nat) : Nat :=
  let quotient := num / den
  let twice := 2 * (num % den)
  if twice < den then quotient
  else if den < twice then quotient + 1
  else quotient + quotient % 2

/-- Rounding is off by at most half. -/
theorem roundHalfEven_near {num den : Nat} (h : 0 < den) :
    2 * num ≤ 2 * (roundHalfEven num den * den) + den ∧
      2 * (roundHalfEven num den * den) ≤ 2 * num + den := by
  have hdiv : den * (num / den) + num % den = num := Nat.div_add_mod num den
  have hcomm : num / den * den = den * (num / den) := Nat.mul_comm _ _
  have hmod : num % den < den := Nat.mod_lt _ h
  unfold roundHalfEven
  dsimp only
  split
  · omega
  · split
    · rw [Nat.add_mul]
      omega
    · rcases Nat.mod_two_eq_zero_or_one (num / den) with h2 | h2 <;> rw [h2, Nat.add_mul] <;> omega

end ActorPlacement
