/-!
# Steps that may fail

When a step that goes on after another, or changes what the other answers, has succeeded, when all steps
of a list have, and when a search for the first fault in a list finds none.
-/

namespace ActorPlacement

variable {ε ε' α β : Type}

theorem except_map_eq_ok {x : Except ε α} {f : α → β} {b : β} :
    x.map f = .ok b ↔ ∃ a, x = .ok a ∧ f a = b := by
  cases x <;> simp [Except.map]

theorem except_bind_eq_ok {x : Except ε α} {f : α → Except ε β} {b : β} :
    (x >>= f) = .ok b ↔ ∃ a, x = .ok a ∧ f a = .ok b := by
  cases x <;> simp [bind, Except.bind]

theorem except_bind_unit_eq_ok {x : Except ε Unit} {f : Unit → Except ε β} {b : β} :
    (x >>= f) = .ok b ↔ x = .ok () ∧ f () = .ok b := by
  cases x <;> simp [bind, Except.bind]

theorem except_mapError_eq_ok {x : Except ε α} {f : ε → ε'} {a : α} :
    x.mapError f = .ok a ↔ x = .ok a := by
  cases x with
  | error e => exact iff_of_false (fun h => by cases h) fun h => by cases h
  | ok b => exact ⟨fun h => by cases h; rfl, fun h => by cases h; rfl⟩

theorem except_toOption_eq_some {x : Except ε α} {a : α} : x.toOption = some a ↔ x = .ok a := by
  cases x <;> simp [Except.toOption]

/-- What is done with every item of a list succeeds just if it does with each. -/
theorem except_forM_eq_ok {f : α → Except ε Unit} {items : List α} :
    items.forM f = .ok () ↔ ∀ a ∈ items, f a = .ok () := by
  induction items with
  | nil => exact iff_of_true rfl fun a ha => by cases ha
  | cons a rest ih =>
    show (f a >>= fun _ => rest.forM f) = _ ↔ _
    rw [except_bind_unit_eq_ok, List.forall_mem_cons, ← ih]

/-- A search along the items and their places finds nothing just if no item is at fault. -/
theorem findSome?_zipIdx_eq_none_iff {f : α × Nat → Option β} {items : List α} {P : α → Prop}
    (h : ∀ a i, f (a, i) = none ↔ P a) : items.zipIdx.findSome? f = none ↔ ∀ a ∈ items, P a := by
  rw [List.findSome?_eq_none_iff]
  constructor
  · intro hnone a ha
    obtain ⟨i, hi⟩ := List.mem_iff_getElem?.1 ha
    exact (h a i).1 (hnone (a, i) (List.mem_zipIdx_iff_getElem?.2 hi))
  · rintro hall ⟨a, i⟩ ha
    exact (h a i).2 (hall a (List.mem_of_getElem? (List.mem_zipIdx_iff_getElem?.1 ha)))

end ActorPlacement
