import ActorPlacement.Bundle
import ActorPlacement.NameMap.Lemmas
import ActorPlacement.Quantity.Rational
import Mathlib.Algebra.Order.BigOperators.Group.List
import Mathlib.Algebra.Order.Ring.Rat
import Mathlib.Tactic.Linarith
import Mathlib.Tactic.Ring

/-!
# Amounts in bundles

What a bundle answers after quantities were added or taken, first for any quantities and then for
exact ones. The main statement is `Bundle.covers_total_cons`: a bundle covers the total of a list
exactly when it covers the first bundle and what is left covers the total of the others. So the
total may be tested at once where bundles are taken one by one, and `Bundle.amount_foldl_subtract`
says that the floor at zero then never shows.
-/

namespace ActorPlacement.Bundle

section Answers

variable {Q : Type} [Quantity Q]

/-- The bundle has an entry for the resource, which may be zero. -/
def Names (b : Bundle Q) (name : String) : Prop := (b.find? name).isSome

instance (b : Bundle Q) (name : String) : Decidable (Names b name) :=
  inferInstanceAs (Decidable ((b.find? name).isSome = true))

theorem amount_of_find? {b : Bundle Q} {name : String} {q : Q} (h : b.find? name = some q) :
    amount b name = q := by
  simp [amount, h]

omit [Quantity Q] in
theorem mem_names_iff {b : Bundle Q} {name : String} : name ∈ b.names ↔ Names b name := by
  rw [NameMap.mem_names_iff, Names, Option.isSome_iff_exists]

theorem entries_eq_map_names (b : Bundle Q) :
    b.entries = b.names.map fun name => (name, amount b name) := by
  rw [NameMap.names, List.map_map]
  refine ((List.map_congr_left fun e he => ?_).trans (List.map_id _)).symm
  have hfind : b.find? e.1 = some e.2 := (NameMap.find?_eq_some_iff b e.1 e.2).2 he
  rw [Function.comp_apply, amount_of_find? hfind, id]

/-- All that the bundle names has a name, and a valid quantity. -/
def Valid (b : Bundle Q) : Prop := ∀ e ∈ b.entries, e.1 ≠ "" ∧ Quantity.isValid e.2 = true

theorem entryFault?_eq_none {name : String} {q : Q} :
    entryFault? name q = none ↔ name ≠ "" ∧ Quantity.isValid q = true := by
  unfold entryFault?
  by_cases hname : name = "" <;> by_cases hvalid : Quantity.isValid q = true <;> simp [hname, hvalid]

theorem fault?_eq_none_iff {b : Bundle Q} : fault? b = none ↔ Valid b := by
  simp only [fault?, List.findSome?_eq_none_iff, entryFault?_eq_none, Valid]

/-- What a bundle without fault names has a valid quantity. -/
theorem isValid_of_find? {b : Bundle Q} (h : fault? b = none) {name : String} {q : Q}
    (hf : b.find? name = some q) : Quantity.isValid q = true :=
  (fault?_eq_none_iff.1 h (name, q) ((NameMap.find?_eq_some_iff b name q).1 hf)).2

theorem find?_add (b other : Bundle Q) (name : String) :
    (add b other).find? name
      = (other.find? name).elim (b.find? name) fun q => some (amount b name + q) := by
  have hchange : ∀ (m : Bundle Q) key q key', (addAmount m key q).find? key'
      = if key = key' then some ((m.find? key').getD Quantity.zero + q) else m.find? key' := by
    intro m key q key'
    rw [addAmount, NameMap.find?_insert]
    by_cases h : key = key' <;> simp [h, amount]
  exact NameMap.find?_foldl (fun held q => some (held.getD Quantity.zero + q)) hchange
    other.ascending b name

theorem find?_subtract (b other : Bundle Q) (name : String) :
    (subtract b other).find? name
      = (other.find? name).elim (b.find? name) fun q =>
          (b.find? name).map fun held => Quantity.floorAtZero (held - q) :=
  NameMap.find?_foldl (fun held q => held.map fun x => Quantity.floorAtZero (x - q))
    (fun m key _ key' => NameMap.find?_adjust m key key' _) other.ascending b name

theorem names_add (b other : Bundle Q) (name : String) :
    Names (add b other) name ↔ Names b name ∨ Names other name := by
  rw [Names, find?_add]
  cases h : other.find? name <;> simp [Names, h]

/-- Adding a list of bundles names what the list names. -/
theorem names_foldl_add (bundles : List (Bundle Q)) (b : Bundle Q) (name : String) :
    Names (bundles.foldl add b) name ↔ Names b name ∨ ∃ other ∈ bundles, Names other name := by
  induction bundles generalizing b with
  | nil => simp
  | cons head rest ih =>
    rw [List.foldl_cons, ih, names_add, or_assoc]
    simp

theorem names_total (bundles : List (Bundle Q)) (name : String) :
    Names (total bundles) name ↔ ∃ b ∈ bundles, Names b name := by
  rw [total, names_foldl_add]
  simp [Names]

/-- Taking bundles leaves every entry there, with nothing in it at worst. -/
theorem names_foldl_subtract (bundles : List (Bundle Q)) (b : Bundle Q) (name : String) :
    Names (bundles.foldl subtract b) name ↔ Names b name := by
  induction bundles generalizing b with
  | nil => exact Iff.rfl
  | cons head rest ih =>
    rw [List.foldl_cons, ih, Names, find?_subtract]
    cases head.find? name <;> simp [Names]

/-- Giving back what was taken leaves an entry for whatever the bundles name. -/
theorem names_givenBack (bundles : List (Bundle Q)) (free : Bundle Q) (name : String) :
    Names (bundles.foldl add (bundles.foldl subtract free)) name
      ↔ Names free name ∨ ∃ b ∈ bundles, Names b name := by
  rw [names_foldl_add, names_foldl_subtract]

/-- A bundle is determined by what it names and by how much there is of everything. -/
theorem ext_amount {b other : Bundle Q} (hnames : ∀ name, Names b name ↔ Names other name)
    (hamounts : ∀ name, amount b name = amount other name) : b = other := by
  refine NameMap.ext_find? fun name => ?_
  have hname := hnames name
  have hamount := hamounts name
  cases hb : b.find? name with
  | none =>
    have habsent : ¬Names other name := fun h => by simpa [Names, hb] using hname.2 h
    have hother : other.find? name = none := by simpa [Names] using habsent
    rw [hother]
  | some q =>
    obtain ⟨q', hother⟩ := Option.isSome_iff_exists.1 (hname.1 (by simp [Names, hb]))
    rw [amount_of_find? hb, amount_of_find? hother] at hamount
    rw [hother, hamount]

end Answers

/-! ## Exact amounts -/

section Exact

variable {b free demand : Bundle Rat} {bundles : List (Bundle Rat)} {name : String}

theorem amount_of_not_names (h : ¬Names b name) : amount b name = 0 := by
  have hnone : b.find? name = none := by simpa [Names] using h
  simp [amount, hnone]

/-- A bundle without fault holds nothing negative. -/
theorem amount_nonneg (h : fault? b = none) (name : String) : 0 ≤ amount b name := by
  cases hf : b.find? name with
  | none => simp [amount, hf]
  | some q =>
    rw [amount_of_find? hf]
    exact (Quantity.isValid_rat q).1 (isValid_of_find? h hf)

theorem covers_iff :
    covers free demand = true ↔ ∀ name, Names demand name → amount demand name ≤ amount free name := by
  rw [covers, List.all_eq_true]
  constructor
  · intro h name hname
    obtain ⟨q, hq⟩ := Option.isSome_iff_exists.1 hname
    have hle := h (name, q) ((NameMap.find?_eq_some_iff demand name q).1 hq)
    rw [amount_of_find? hq]
    simpa using hle
  · intro h e he
    have hq : demand.find? e.1 = some e.2 := (NameMap.find?_eq_some_iff demand e.1 e.2).2 he
    have hle := h e.1 (by simp [Names, hq])
    rw [amount_of_find? hq] at hle
    simpa using hle

/-- Where nothing free is negative, resources that are not asked for make no difference. -/
theorem covers_iff_of_nonneg (hfree : ∀ name, 0 ≤ amount free name) :
    covers free demand = true ↔ ∀ name, amount demand name ≤ amount free name := by
  rw [covers_iff]
  refine ⟨fun h name => ?_, fun h name _ => h name⟩
  by_cases hname : Names demand name
  · exact h name hname
  · rw [amount_of_not_names hname]
    exact hfree name

theorem amount_add (b other : Bundle Rat) (name : String) :
    amount (add b other) name = amount b name + amount other name := by
  rw [amount, find?_add]
  cases h : other.find? name with
  | none => simp [amount, h]
  | some q => simp [amount, h]

/-- What is covered is taken exactly. -/
theorem amount_subtract (hcovers : covers free b = true) (hb : fault? b = none) (name : String) :
    amount (subtract free b) name = amount free name - amount b name := by
  rw [amount, find?_subtract]
  cases hq : b.find? name with
  | none =>
    have hzero : amount b name = 0 := amount_of_not_names (by simp [Names, hq])
    rw [hzero]
    simp [amount]
  | some q =>
    have hle := covers_iff.1 hcovers name (by simp [Names, hq])
    have hnonneg := amount_nonneg hb name
    rw [amount_of_find? hq] at hle hnonneg ⊢
    cases hheld : free.find? name with
    | none =>
      -- an absent resource covers a demand of nothing only
      have hzero : amount free name = 0 := amount_of_not_names (by simp [Names, hheld])
      rw [hzero] at hle ⊢
      have hq0 : q = 0 := le_antisymm hle hnonneg
      simp [hq0]
    | some held =>
      rw [amount_of_find? hheld] at hle ⊢
      simpa using Quantity.floorAtZero_rat (sub_nonneg.2 hle)

theorem amount_foldl_add (bundles : List (Bundle Rat)) (b : Bundle Rat) (name : String) :
    amount (bundles.foldl add b) name = amount b name + (bundles.map (amount · name)).sum := by
  induction bundles generalizing b with
  | nil => simp
  | cons head rest ih =>
    rw [List.foldl_cons, ih, amount_add, List.map_cons, List.sum_cons]
    ring

theorem amount_total (bundles : List (Bundle Rat)) (name : String) :
    amount (total bundles) name = (bundles.map (amount · name)).sum := by
  rw [total, amount_foldl_add]
  simp [amount]

theorem sum_amount_nonneg (h : ∀ b ∈ bundles, fault? b = none) (name : String) :
    0 ≤ (bundles.map (amount · name)).sum := by
  refine List.sum_nonneg fun x hx => ?_
  obtain ⟨b, hb, rfl⟩ := List.mem_map.1 hx
  exact amount_nonneg (h b hb) name

theorem covers_total_nil (free : Bundle Rat) : covers free (total []) = true := rfl

/-- What covers the total of some bundles covers each of them. -/
theorem covers_of_covers_total (hvalid : ∀ other ∈ bundles, fault? other = none)
    (hcovers : covers free (total bundles) = true) (hb : b ∈ bundles) : covers free b = true := by
  refine covers_iff.2 fun name hname => ?_
  have htotal : amount (total bundles) name ≤ amount free name :=
    covers_iff.1 hcovers name ((names_total bundles name).2 ⟨b, hb, hname⟩)
  have hpart : amount b name ≤ (bundles.map (amount · name)).sum := by
    refine List.single_le_sum (fun x hx => ?_) _ (List.mem_map_of_mem hb)
    obtain ⟨other, hother, rfl⟩ := List.mem_map.1 hx
    exact amount_nonneg (hvalid other hother) name
  rw [amount_total] at htotal
  exact hpart.trans htotal

/-- Testing the total at once is testing the first bundle, and the others on what it leaves. -/
theorem covers_total_cons (hb : fault? b = none) (hrest : ∀ other ∈ bundles, fault? other = none) :
    covers free (total (b :: bundles)) = true
      ↔ covers free b = true ∧ covers (subtract free b) (total bundles) = true := by
  have hsum : ∀ name, amount (total (b :: bundles)) name = amount b name + amount (total bundles) name := by
    intro name
    rw [amount_total, amount_total, List.map_cons, List.sum_cons]
  have hnames : ∀ name, Names (total (b :: bundles)) name ↔ Names b name ∨ Names (total bundles) name := by
    intro name
    simp [names_total]
  have hpos : ∀ name, 0 ≤ amount (total bundles) name := by
    intro name
    rw [amount_total]
    exact sum_amount_nonneg hrest name
  constructor
  · intro h
    have hle := covers_iff.1 h
    have hfirst : covers free b = true := by
      refine covers_iff.2 fun name hname => ?_
      have := hle name ((hnames name).2 (.inl hname))
      have := hsum name
      have := hpos name
      linarith
    refine ⟨hfirst, covers_iff.2 fun name hname => ?_⟩
    have := hle name ((hnames name).2 (.inr hname))
    have := hsum name
    rw [amount_subtract hfirst hb]
    linarith
  · rintro ⟨hfirst, hothers⟩
    refine covers_iff.2 fun name hname => ?_
    rw [hsum]
    by_cases hlater : Names (total bundles) name
    · have := covers_iff.1 hothers name hlater
      rw [amount_subtract hfirst hb] at this
      linarith
    · rw [amount_of_not_names hlater, add_zero]
      exact covers_iff.1 hfirst name (((hnames name).1 hname).resolve_right hlater)

/-- Bundles whose total is covered are taken exactly, one after the other. -/
theorem amount_foldl_subtract (hvalid : ∀ b ∈ bundles, fault? b = none)
    (hcovers : covers free (total bundles) = true) (name : String) :
    amount (bundles.foldl subtract free) name
      = amount free name - (bundles.map (amount · name)).sum := by
  induction bundles generalizing free with
  | nil => simp
  | cons head rest ih =>
    have hhead := hvalid head List.mem_cons_self
    have hrest : ∀ b ∈ rest, fault? b = none := fun b hb => hvalid b (List.mem_cons_of_mem _ hb)
    obtain ⟨hfirst, hothers⟩ := (covers_total_cons hhead hrest).1 hcovers
    rw [List.foldl_cons, ih hrest hothers, amount_subtract hfirst hhead, List.map_cons, List.sum_cons]
    ring

/-- Giving back what was taken leaves as much of everything as there was. -/
theorem amount_givenBack (hvalid : ∀ b ∈ bundles, fault? b = none)
    (hcovers : covers free (total bundles) = true) (name : String) :
    amount (bundles.foldl add (bundles.foldl subtract free)) name = amount free name := by
  rw [amount_foldl_add, amount_foldl_subtract hvalid hcovers]
  ring

/-- So it undoes the taking exactly when the bundles name nothing new. -/
theorem givenBack_eq_iff (hvalid : ∀ b ∈ bundles, fault? b = none)
    (hcovers : covers free (total bundles) = true) :
    bundles.foldl add (bundles.foldl subtract free) = free
      ↔ ∀ b ∈ bundles, ∀ name, Names b name → Names free name := by
  constructor
  · intro heq b hb name hname
    rw [← heq]
    exact (names_givenBack bundles free name).2 (.inr ⟨b, hb, hname⟩)
  · intro hknown
    refine ext_amount (fun name => ?_) (amount_givenBack hvalid hcovers)
    rw [names_givenBack]
    exact or_iff_left_of_imp fun ⟨b, hb, hname⟩ => hknown b hb name hname

end Exact

end ActorPlacement.Bundle
