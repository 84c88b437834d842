import ActorPlacement.Proofs.Bundle.Amounts
import ActorPlacement.Proofs.Quantity.Order

/-!
# Bundles taken one by one

Whether a node has room for some bundles is tested by their total, but the bundles are then taken from it
one by one. Taken in turn (`takeInTurn?`), each has to be covered by what those before it left. For bundles
without fault that is possible exactly when the total is covered (`takeInTurn?_eq_some_iff`). Their order
makes no difference, as any two of them may change places, both when they are taken
(`subtract_right_comm`, which holds even where too little is free) and when they are added
(`add_right_comm`).
-/

namespace ActorPlacement.Bundle

/-- What is left of a bundle when others are taken from it in turn, if each of them is covered by what those
before it left. -/
def takeInTurn? {Q : Type} [Quantity Q] : Bundle Q → List (Bundle Q) → Option (Bundle Q)
  | free, [] => some free
  | free, b :: rest => if covers free b then takeInTurn? (subtract free b) rest else none

theorem takeInTurn?_cons_eq_some {Q : Type} [Quantity Q] {free b left : Bundle Q} {rest : List (Bundle Q)} :
    takeInTurn? free (b :: rest) = some left
      ↔ covers free b = true ∧ takeInTurn? (subtract free b) rest = some left := by
  by_cases h : covers free b = true <;> simp [takeInTurn?, h]

variable {free left b other : Bundle Rat} {bundles order : List (Bundle Rat)}

/-- Bundles without fault can be taken in turn exactly when their total is covered. What is left is then
what taking all of them leaves. -/
theorem takeInTurn?_eq_some_iff (hvalid : ∀ b ∈ bundles, fault? b = none) :
    takeInTurn? free bundles = some left
      ↔ covers free (total bundles) = true ∧ bundles.foldl subtract free = left := by
  -- what the first bundle leaves is what the others are taken from
  induction bundles generalizing free with
  | nil =>
    rw [takeInTurn?, Option.some_inj]
    exact (and_iff_right (covers_total_nil free)).symm
  | cons b rest ih =>
    obtain ⟨hb, hrest⟩ := List.forall_mem_cons.1 hvalid
    rw [takeInTurn?_cons_eq_some, ih hrest, covers_total_cons hb hrest, and_assoc, List.foldl_cons]

/-! ## Any order -/

/-- Of two bundles that are taken either may be the first. -/
theorem subtract_right_comm (hb : fault? b = none) (hother : fault? other = none) (free : Bundle Rat) :
    subtract (subtract free b) other = subtract (subtract free other) b := by
  refine NameMap.ext_find? fun name => ?_
  simp only [find?_subtract]
  cases hfirst : b.find? name with
  | none => rfl
  | some q =>
    cases hsecond : other.find? name with
    | none => rfl
    | some q' =>
      have hq : 0 ≤ q := (Quantity.isValid_rat q).1 (isValid_of_find? hb hfirst)
      have hq' : 0 ≤ q' := (Quantity.isValid_rat q').1 (isValid_of_find? hother hsecond)
      -- both bundles name the resource, and what they ask of it adds up
      simp only [Option.elim_some, Option.map_map, Function.comp_def, Quantity.floorAtZero_sub_sub _ _ hq,
        Quantity.floorAtZero_sub_sub _ _ hq', add_comm]

/-- Of two bundles that are added either may be the first. -/
theorem add_right_comm (b other held : Bundle Rat) : add (add held b) other = add (add held other) b := by
  refine ext_amount (fun name => ?_) fun name => ?_
  · simp only [names_add, or_right_comm]
  · simp only [amount_add]
    ring

theorem foldl_add_perm (h : order.Perm bundles) (held : Bundle Rat) :
    order.foldl add held = bundles.foldl add held :=
  h.foldl_eq' (fun b _ other _ held => add_right_comm b other held) held

theorem total_perm (h : order.Perm bundles) : total order = total bundles := foldl_add_perm h _

theorem foldl_subtract_perm (hvalid : ∀ b ∈ bundles, fault? b = none) (h : order.Perm bundles)
    (free : Bundle Rat) : order.foldl subtract free = bundles.foldl subtract free :=
  h.foldl_eq' (fun b hb other hother held =>
    subtract_right_comm (hvalid b (h.mem_iff.1 hb)) (hvalid other (h.mem_iff.1 hother)) held) free

theorem takeInTurn?_perm (hvalid : ∀ b ∈ bundles, fault? b = none) (h : order.Perm bundles) (free : Bundle Rat) :
    takeInTurn? free order = takeInTurn? free bundles := by
  have hvalid' : ∀ b ∈ order, fault? b = none := fun b hb => hvalid b (h.mem_iff.1 hb)
  ext left
  rw [takeInTurn?_eq_some_iff hvalid, takeInTurn?_eq_some_iff hvalid', total_perm h, foldl_subtract_perm hvalid h]

/-- **Testing the total is taking the bundles in turn.** Whatever is free covers the total of some bundles
without fault exactly when they can be taken one by one, and in any order the answer and what is left are
the same. What is left is then what taking all of them unchecked leaves, and of every resource it is what
was free less what the bundles ask for together. Adding them back in any order restores as much of every
resource as was free. -/
theorem takeInTurn?_agrees (free : Bundle Rat) (hvalid : ∀ b ∈ bundles, fault? b = none) :
    (covers free (total bundles) = true ↔ ∃ left, takeInTurn? free bundles = some left)
      ∧ (∀ order : List (Bundle Rat), order.Perm bundles →
          covers free (total order) = covers free (total bundles)
            ∧ takeInTurn? free order = takeInTurn? free bundles)
      ∧ ∀ left, takeInTurn? free bundles = some left →
          bundles.foldl subtract free = left
            ∧ (∀ name, amount left name = amount free name - (bundles.map (amount · name)).sum)
            ∧ ∀ order : List (Bundle Rat), order.Perm bundles → ∀ name,
                amount (order.foldl add left) name = amount free name := by
  refine ⟨?_, fun order horder => ?_, fun left htaken => ?_⟩
  · simp only [takeInTurn?_eq_some_iff hvalid]
    exact ⟨fun hcovers => ⟨_, hcovers, rfl⟩, fun ⟨_, hcovers, _⟩ => hcovers⟩
  · exact ⟨by rw [total_perm horder], takeInTurn?_perm hvalid horder free⟩
  · obtain ⟨hcovers, rfl⟩ := (takeInTurn?_eq_some_iff hvalid).1 htaken
    refine ⟨rfl, amount_foldl_subtract hvalid hcovers, fun order horder name => ?_⟩
    rw [foldl_add_perm horder]
    exact amount_givenBack hvalid hcovers name

/-- One bundle names a resource that nothing is free of, and asks for none of it. Memory is free that no
bundle names. Either order leaves the same, and all is given back. With two processors for the three that
are asked for, both orders fail. -/
theorem takeInTurn?_agrees_absent :
    let cpus (n : Rat) : Bundle Rat := NameMap.empty.insert "CPU" n
    let free := (cpus 3).insert "RAM" 5
    let left := (cpus 0).insert "RAM" 5
    let first := (cpus 2).insert "GPU" 0
    (∀ b ∈ [first, cpus 1], fault? b = none)
      ∧ takeInTurn? free [first, cpus 1] = some left ∧ takeInTurn? free [cpus 1, first] = some left
      ∧ (∀ name, amount ([cpus 1, first].foldl add left) name = amount free name)
      ∧ covers (cpus 2) (total [first, cpus 1]) = false
      ∧ takeInTurn? (cpus 2) [cpus 1, first] = none := by
  intro cpus free left first
  have hvalid : ∀ b ∈ [first, cpus 1], fault? b = none := by decide +kernel
  have htaken : takeInTurn? free [first, cpus 1] = some left := by decide +kernel
  have hswap : [cpus 1, first].Perm [first, cpus 1] := .swap _ _ _
  obtain ⟨-, hany, hleft⟩ := takeInTurn?_agrees free hvalid
  obtain ⟨-, hfewer, -⟩ := takeInTurn?_agrees (cpus 2) hvalid
  have hfails : takeInTurn? (cpus 2) [first, cpus 1] = none := by decide +kernel
  exact ⟨hvalid, htaken, (hany _ hswap).2.trans htaken, (hleft left htaken).2.2 _ hswap, by decide +kernel,
    (hfewer _ hswap).2.trans hfails⟩

end ActorPlacement.Bundle
