/-!
# The order of texts

Texts are compared character by character. That is the order of their octets in UTF-8
(`lt_iff_octets`): of two characters the lesser has the lesser encoding, and no encoding begins another.
-/

namespace ActorPlacement

/-- The octets of a text in UTF-8. -/
def octets (s : String) : List UInt8 := s.toUTF8.data.toList

theorem octets_eq (s : String) : octets s = s.toList.flatMap String.utf8EncodeChar := by
  rw [octets, String.toUTF8, ← String.utf8Encode_toList, List.utf8Encode, List.data_toByteArray]

theorem ofNat_lt_ofNat {m n : Nat} (hm : m < 256) (hn : n < 256) :
    UInt8.ofNat m < UInt8.ofNat n ↔ m < n := by
  rw [UInt8.lt_iff_toNat_lt, UInt8.toNat_ofNat', UInt8.toNat_ofNat', Nat.mod_eq_of_lt hm, Nat.mod_eq_of_lt hn]

theorem ofNat_eq_ofNat {m n : Nat} (hm : m < 256) (hn : n < 256) :
    UInt8.ofNat m = UInt8.ofNat n ↔ m = n := by
  rw [← UInt8.toNat_inj, UInt8.toNat_ofNat', UInt8.toNat_ofNat', Nat.mod_eq_of_lt hm, Nat.mod_eq_of_lt hn]

/-- The lesser of two characters has the lesser encoding, whatever follows. -/
theorem utf8EncodeChar_append_lt {c d : Char} (h : c < d) (rest rest' : List UInt8) :
    String.utf8EncodeChar c ++ rest < String.utf8EncodeChar d ++ rest' := by
  have hlt : c.val.toNat < d.val.toNat := h
  have hvalid : d.val.toNat < 1114112 := by
    have := d.valid
    simp only [UInt32.isValidChar, Nat.isValidChar] at this
    omega
  simp only [String.utf8EncodeChar]
  generalize c.val.toNat = m at *
  generalize d.val.toNat = n at *
  -- the digits of either number in base 64, so that one quotient leads to the next
  rw [show m / 4096 = m / 64 / 64 by omega, show m / 262144 = m / 64 / 64 / 64 by omega,
    show n / 4096 = n / 64 / 64 by omega, show n / 262144 = n / 64 / 64 / 64 by omega]
  repeat' split
  all_goals
    simp (disch := omega) only [List.cons_append, List.nil_append, List.cons_lt_cons_iff, ofNat_lt_ofNat,
      ofNat_eq_ofNat]
    omega

theorem nil_lt_utf8EncodeChar_append (c : Char) (rest : List UInt8) :
    [] < String.utf8EncodeChar c ++ rest := by
  cases h : String.utf8EncodeChar c ++ rest with
  | nil => exact absurd (List.append_eq_nil_iff.1 h).1 String.utf8EncodeChar_ne_nil
  | cons octet more => exact List.nil_lt_cons octet more

theorem flatMap_utf8EncodeChar_lt {a b : List Char} (h : a < b) :
    a.flatMap String.utf8EncodeChar < b.flatMap String.utf8EncodeChar := by
  induction a generalizing b with
  | nil =>
    cases b with
    | nil => exact absurd h (List.not_lt_nil _)
    | cons d b => exact nil_lt_utf8EncodeChar_append d _
  | cons c a ih =>
    cases b with
    | nil => exact absurd h (List.not_lt_nil _)
    | cons d b =>
      rw [List.flatMap_cons, List.flatMap_cons]
      rcases List.cons_lt_cons_iff.1 h with hlt | ⟨rfl, hlt⟩
      · exact utf8EncodeChar_append_lt hlt _ _
      · exact List.append_left_lt (ih hlt)

/-- Texts compare as their octets do. -/
theorem lt_iff_octets {a b : String} : a < b ↔ octets a < octets b := by
  have hmono : ∀ {a b : String}, a < b → octets a < octets b := fun {a b} h => by
    rw [octets_eq, octets_eq]
    exact flatMap_utf8EncodeChar_lt h
  refine ⟨hmono, fun h => ?_⟩
  rcases Std.lt_trichotomy a b with hlt | rfl | hlt
  · exact hlt
  · exact absurd h (List.lt_irrefl _)
  · exact absurd (List.lt_trans h (hmono hlt)) (List.lt_irrefl _)

end ActorPlacement
