import ActorPlacement.Text.Affix
import ActorPlacement.Text.Blank
import Mathlib.Data.List.TakeDrop
import Mathlib.Data.List.TakeWhile

/-!
# Where texts are cut

A text is cut before its end (`before?_eq_some_iff`), at the first occurrence of a mark (`cutAt?_eq_some_iff`), and
between the blanks at its ends and the rest (`trimmed_eq_iff`). Each time the cut is told by the pieces that make
up the text.
-/

namespace ActorPlacement

/-- A run that is followed by something else ends there. -/
theorem span_append {α : Type} {p : α → Bool} {front back : List α} (hfront : ∀ a ∈ front, p a = true)
    (hback : ∀ a ∈ back.head?, p a = false) : (front ++ back).span p = (front, back) := by
  rw [List.span_eq_takeWhile_dropWhile, List.takeWhile_append_of_pos hfront, List.dropWhile_append_of_pos hfront]
  cases back with
  | nil => simp
  | cons a back => simp [hback a rfl]

/-! ## Ends -/

theorem before?_eq_some_iff {s tail front : String} : before? s tail = some front ↔ s = front ++ tail := by
  have hsplit : s = front ++ tail ↔ s.toList = front.toList ++ tail.toList := by
    rw [← String.toList_append, String.toList_inj]
  rw [hsplit, before?]
  constructor
  · intro h
    split at h
    · rename_i hsuffix
      obtain ⟨before, hbefore⟩ := List.isSuffixOf_iff_suffix.1 hsuffix
      rw [← hbefore, List.length_append, Nat.add_sub_cancel, List.take_left] at h
      obtain rfl := Option.some.inj h
      rw [String.toList_ofList, hbefore]
    · cases h
  · intro h
    rw [h, if_pos (List.isSuffixOf_iff_suffix.2 ⟨_, rfl⟩)]
    simp

theorem before?_eq_none_iff {s tail : String} : before? s tail = none ↔ ∀ front, s ≠ front ++ tail := by
  simp only [Option.eq_none_iff_forall_ne_some, ne_eq, before?_eq_some_iff]

/-! ## Marks -/

/-- A text is cut at the first mark, so the front has none. -/
theorem cutAt?_eq_some_iff {mark : Char} {s front back : String} :
    cutAt? mark s = some (front, back) ↔ mark ∉ front.toList ∧ s.toList = front.toList ++ mark :: back.toList := by
  unfold cutAt?
  constructor
  · intro h
    rw [List.span_eq_takeWhile_dropWhile] at h
    split at h
    · cases h
    · rename_i before c after hspan
      cases h
      obtain ⟨hbefore, hafter⟩ := Prod.mk.inj hspan
      have hc : (c != mark) = false := by
        have hstop := List.head?_dropWhile_not (· != mark) s.toList
        rwa [hafter] at hstop
      obtain rfl : c = mark := by simpa using hc
      rw [String.toList_ofList, String.toList_ofList, ← hbefore, ← hafter, List.takeWhile_append_dropWhile]
      exact ⟨fun hmem => by simpa using List.mem_takeWhile_imp hmem, rfl⟩
  · rintro ⟨hfront, hs⟩
    have hspan : s.toList.span (· != mark) = (front.toList, mark :: back.toList) := by
      rw [hs]
      refine span_append (fun c hc => ?_) (by simp)
      have hne : c ≠ mark := fun heq => hfront (heq ▸ hc)
      simpa using hne
    rw [hspan]
    simp

theorem cutAt?_eq_some_iff_append {mark : Char} {s front back : String} :
    cutAt? mark s = some (front, back) ↔ mark ∉ front.toList ∧ s = front ++ String.singleton mark ++ back := by
  rw [cutAt?_eq_some_iff, ← String.toList_inj]
  simp

/-! ## Blanks -/

/-- Neither the first character nor the last is a blank. -/
def Unpadded (cs : List Char) : Prop :=
  (∀ c ∈ cs.head?, isBlank c = false) ∧ ∀ c ∈ cs.getLast?, isBlank c = false

theorem isDigit_of_mem_toString {n : Nat} {c : Char} (h : c ∈ (toString n).toList) : c.isDigit = true := by
  rw [Nat.toString_eq_ofList_toDigits, String.toList_ofList] at h
  exact Nat.isDigit_of_mem_toDigits (by omega) (by omega) h

/-- No character is a blank. -/
def NoBlank (cs : List Char) : Prop := ∀ c ∈ cs, isBlank c = false

-- by the characters of the text, not by all there are
instance (cs : List Char) : Decidable (NoBlank cs) := List.decidableBAll _ cs

namespace NoBlank

variable {front back cs : List Char}

theorem append (hfront : NoBlank front) (hback : NoBlank back) : NoBlank (front ++ back) :=
  List.forall_mem_append.2 ⟨hfront, hback⟩

theorem of_subset (h : NoBlank cs) (hsub : front ⊆ cs) : NoBlank front := fun c hc => h c (hsub hc)

theorem unpadded (h : NoBlank cs) : Unpadded cs :=
  ⟨fun c hc => h c (List.mem_of_mem_head? hc), fun c hc => h c (List.mem_of_mem_getLast? hc)⟩

theorem of_digits (h : ∀ c ∈ cs, c.isDigit = true) : NoBlank cs := by
  intro c hc
  have hdigit : 48 ≤ c.toNat ∧ c.toNat ≤ 57 := Char.isDigit_iff_toNat.1 (h c hc)
  simp only [isBlank, Bool.or_eq_false_iff, Bool.and_eq_false_iff, beq_eq_false_iff_ne, decide_eq_false_iff_not]
  omega

theorem toString_nat (n : Nat) : NoBlank (toString n).toList := of_digits fun _ hc => isDigit_of_mem_toString hc

end NoBlank

theorem dropBlanks_append {before cs : List Char} (hbefore : ∀ c ∈ before, isBlank c = true)
    (hcs : ∀ c ∈ cs.head?, isBlank c = false) : dropBlanks (before ++ cs) = cs := by
  rw [dropBlanks, List.dropWhile_append_of_pos hbefore]
  cases cs with
  | nil => rfl
  | cons c cs => simp [hcs c rfl]

theorem exists_dropBlanks (cs : List Char) :
    ∃ before, (∀ c ∈ before, isBlank c = true) ∧ cs = before ++ dropBlanks cs
      ∧ ∀ c ∈ (dropBlanks cs).head?, isBlank c = false := by
  refine ⟨cs.takeWhile isBlank, fun c hc => List.mem_takeWhile_imp hc, List.takeWhile_append_dropWhile.symm, ?_⟩
  intro c hc
  have hstop := List.head?_dropWhile_not isBlank cs
  rwa [← dropBlanks, Option.mem_def.1 hc] at hstop

theorem trimBlanks_append {before cs after : List Char} (hbefore : ∀ c ∈ before, isBlank c = true)
    (hafter : ∀ c ∈ after, isBlank c = true) (hcs : Unpadded cs) : trimBlanks (before ++ cs ++ after) = cs := by
  cases cs with
  | nil =>
    have hall : ∀ c ∈ before ++ after, isBlank c = true := fun c hc => by
      rcases List.mem_append.1 hc with hc | hc
      · exact hbefore c hc
      · exact hafter c hc
    have hnil : dropBlanks (before ++ [] ++ after) = [] := by
      rw [List.append_nil, ← List.append_nil (before ++ after)]
      exact dropBlanks_append hall (by simp)
    rw [trimBlanks, hnil]
    rfl
  | cons c cs =>
    have hfront : dropBlanks (before ++ c :: cs ++ after) = c :: cs ++ after := by
      rw [List.append_assoc]
      exact dropBlanks_append hbefore hcs.1
    have hback : dropBlanks (c :: cs ++ after).reverse = (c :: cs).reverse := by
      rw [List.reverse_append]
      refine dropBlanks_append (fun c hc => hafter c (List.mem_reverse.1 hc)) ?_
      rw [List.head?_reverse]
      exact hcs.2
    rw [trimBlanks, hfront, hback, List.reverse_reverse]

/-- The blanks at the ends of a text are cut off, and nothing else. -/
theorem trimmed_eq_iff {s t : String} : trimmed s = t ↔ Unpadded t.toList ∧ ∃ before after,
    (∀ c ∈ before, isBlank c = true) ∧ (∀ c ∈ after, isBlank c = true)
      ∧ s.toList = before ++ t.toList ++ after := by
  constructor
  · rintro rfl
    obtain ⟨before, hbefore, hs, hfirst⟩ := exists_dropBlanks s.toList
    obtain ⟨after, hafter, hrest, hlast⟩ := exists_dropBlanks (dropBlanks s.toList).reverse
    have hkept : dropBlanks s.toList = trimBlanks s.toList ++ after.reverse := by
      rw [trimBlanks, ← List.reverse_append, ← hrest, List.reverse_reverse]
    rw [trimmed, String.toList_ofList]
    refine ⟨⟨fun c hc => hfirst c ?_, fun c hc => hlast c ?_⟩, before, after.reverse, hbefore, ?_, ?_⟩
    · rw [hkept, List.head?_append, Option.mem_def.1 hc]
      rfl
    · rwa [trimBlanks, List.getLast?_reverse] at hc
    · exact fun c hc => hafter c (List.mem_reverse.1 hc)
    · rw [List.append_assoc, ← hkept, ← hs]
  · rintro ⟨ht, before, after, hbefore, hafter, hs⟩
    rw [trimmed, hs, trimBlanks_append hbefore hafter ht, String.ofList_toList]

/-- A text without blanks at its ends stays as it is. -/
theorem trimmed_of_unpadded {s : String} (h : Unpadded s.toList) : trimmed s = s :=
  trimmed_eq_iff.2 ⟨h, [], [], by simp⟩

end ActorPlacement
