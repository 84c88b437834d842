import ActorPlacement.Proofs.Toml.Texts

/-!
# TOML keys are read back

A key is written bare or as a text on one line, and read back either way (`readSimpleKey?_writeKey`). The first
character tells that a key follows (`OpensKey`). The parts of a dotted key are read back up to what cannot go on the
key (`readKey?_writePath`).
-/

namespace ActorPlacement.Toml

variable {rest : List Char}

theorem readSimpleKey?_basicText (cs rest : List Char) :
    readSimpleKey? (basicText cs ++ rest) = some (String.ofList cs, rest) := by
  have hinside := inside_escapeAll 0 false 0 cs
  have hwritten : basicText cs ++ rest = '"' :: (escapeAll 0 false 0 cs ++ '"' :: rest) := by simp [basicText]
  have hlength := hinside.length_le
  have hread := readBasic?_inside hinside rest ((basicText cs ++ rest).length + 1)
    (by simp only [hwritten, List.length_cons, List.length_append]; omega)
  rw [hwritten] at hread ⊢
  rw [readSimpleKey?, hread]
  rfl

theorem readSimpleKey?_literalText {cs : List Char} (hinside : Inside '\'' false false 0 0 cs cs) (rest : List Char) :
    readSimpleKey? (literalText cs ++ rest) = some (String.ofList cs, rest) := by
  have hwritten : literalText cs ++ rest = '\'' :: (cs ++ '\'' :: rest) := by simp [literalText]
  rw [hwritten, readSimpleKey?, readLiteral?_inside hinside rest]
  rfl

theorem readSimpleKey?_bare {cs : List Char} (hne : cs ≠ []) (hbare : ∀ c ∈ cs, isBare c = true)
    (hrest : ∀ c ∈ rest.head?, isBare c = false) : readSimpleKey? (cs ++ rest) = some (String.ofList cs, rest) := by
  have hspan : (cs ++ rest).span isBare = (cs, rest) := span_append hbare hrest
  obtain ⟨c, tail, rfl⟩ := List.exists_cons_of_ne_nil hne
  have hc := hbare c List.mem_cons_self
  unfold readSimpleKey?
  split
  · rename_i heq
    rw [(List.cons.inj heq).1] at hc
    cases hc
  · rename_i heq
    rw [(List.cons.inj heq).1] at hc
    cases hc
  · rw [hspan]
    rfl

/-- Every key is read back as it was written. -/
theorem readSimpleKey?_writeKey (s : String) (hrest : ∀ c ∈ rest.head?, isBare c = false) :
    readSimpleKey? ((writeKey s).toList ++ rest) = some (s, rest) := by
  have hbasic := readSimpleKey?_basicText s.toList rest
  have hliteral (hone : ((TextTraits.ofText s.toList).control = false ∧ (TextTraits.ofText s.toList).lineFeed = false)
      ∧ (TextTraits.ofText s.toList).singleRun = 0) :
      readSimpleKey? (literalText s.toList ++ rest) = some (String.ofList s.toList, rest) := by
    refine readSimpleKey?_literalText (inside_self (Nat.le_of_eq hone.2) fun c hc => .inl ?_) rest
    refine (isPlain_or_of_control hone.1.1 c hc).resolve_right ?_
    rintro rfl
    exact notMem_of_lineFeed hone.1.2 hc
  have hbare (hall : s.toList ≠ [] ∧ ∀ c ∈ s.toList, isBare c = true) :
      readSimpleKey? (s.toList ++ rest) = some (String.ofList s.toList, rest) :=
    readSimpleKey?_bare hall.1 hall.2 hrest
  rw [String.ofList_toList] at hbasic hliteral hbare
  unfold writeKey
  dsimp only
  split
  · rename_i hall
    simp only [Bool.and_eq_true, Bool.not_eq_true', List.isEmpty_eq_false_iff, List.all_eq_true] at hall
    exact hbare hall
  rw [String.toList_ofList]
  split
  · exact hbasic
  split
  · exact hliteral (by simp_all)
  · exact hbasic

/-- A character that a written key may begin with. -/
def OpensKey (c : Char) : Prop := isBare c = true ∨ c = '"' ∨ c = '\''

theorem OpensKey.ne {c d : Char} (h : OpensKey c) (hbare : isBare d = false) (hdouble : d ≠ '"') (hsingle : d ≠ '\'') :
    c ≠ d := by
  rintro rfl
  rcases h with h | h | h
  · rw [hbare] at h
    cases h
  · exact hdouble h
  · exact hsingle h

theorem exists_opensKey (s : String) : ∃ c tail, (writeKey s).toList = c :: tail ∧ OpensKey c := by
  unfold writeKey
  dsimp only
  split
  · rename_i hall
    simp only [Bool.and_eq_true, Bool.not_eq_true', List.isEmpty_eq_false_iff, List.all_eq_true] at hall
    obtain ⟨c, tail, hs⟩ := List.exists_cons_of_ne_nil hall.1
    exact ⟨c, tail, hs, .inl (hall.2 c (hs ▸ List.mem_cons_self))⟩
  · rw [String.toList_ofList]
    repeat' split
    · exact ⟨'"', _, rfl, .inr (.inl rfl)⟩
    · exact ⟨'\'', _, rfl, .inr (.inr rfl)⟩
    · exact ⟨'"', _, rfl, .inr (.inl rfl)⟩

/-- The parts of a dotted key as they are written. -/
def writePath (path : List String) : List Char := (joinedWith "." (path.map writeKey)).toList

theorem writePath_singleton (key : String) : writePath [key] = (writeKey key).toList := by
  rw [writePath, joinedWith, List.map_singleton, String.intercalate_singleton]

theorem writePath_cons {path : List String} (key : String) (hpath : path ≠ []) :
    writePath (key :: path) = (writeKey key).toList ++ '.' :: writePath path := by
  obtain ⟨next, path, rfl⟩ := List.exists_cons_of_ne_nil hpath
  simp only [writePath, joinedWith, List.map_cons, String.intercalate_cons_cons, String.toList_append,
    List.append_assoc]
  rfl

theorem skipSpaces_writeKey (key : String) (rest : List Char) :
    skipSpaces ((writeKey key).toList ++ rest) = (writeKey key).toList ++ rest := by
  obtain ⟨c, tail, hkey, hc⟩ := exists_opensKey key
  have hspace : c ≠ ' ' := hc.ne rfl (by decide) (by decide)
  have htab : c ≠ '\t' := hc.ne rfl (by decide) (by decide)
  simp [skipSpaces, hkey, isSpace, hspace, htab]

/-- The parts of a dotted key are read back up to what cannot go on the key. -/
theorem readKeyParts?_writePath {path : List String} (hpath : path ≠ []) (hbare : ∀ c ∈ rest.head?, isBare c = false)
    (hdot : (skipSpaces rest).head? ≠ some '.') (fuel : Nat) (hfuel : path.length ≤ fuel) :
    readKeyParts? fuel (writePath path ++ rest) = some (path, skipSpaces rest) := by
  induction path generalizing fuel with
  | nil => exact absurd rfl hpath
  | cons key path ih =>
    obtain ⟨k, rfl⟩ := Nat.exists_eq_add_one_of_ne_zero (Nat.ne_of_gt (Nat.zero_lt_of_lt hfuel))
    by_cases hlast : path = []
    · subst hlast
      rw [writePath_singleton, readKeyParts?, skipSpaces_writeKey, readSimpleKey?_writeKey key hbare, Option.bind_some]
      dsimp only
      split
      · rename_i heq
        exact absurd (by rw [heq]; rfl) hdot
      · rfl
    · have hread := ih hlast k (Nat.le_of_succ_le_succ hfuel)
      rw [writePath_cons key hlast, List.append_assoc, readKeyParts?, skipSpaces_writeKey,
        readSimpleKey?_writeKey key (by simp [isBare]), Option.bind_some]
      show (readKeyParts? k (writePath path ++ rest)).map _ = _
      rw [hread]
      rfl

theorem length_le_writePath (path : List String) : path.length ≤ (writePath path).length := by
  induction path with
  | nil => exact Nat.zero_le _
  | cons key path ih =>
    obtain ⟨c, tail, hkey, -⟩ := exists_opensKey key
    by_cases hlast : path = []
    · simp [hlast, writePath_singleton, hkey]
    · simp only [writePath_cons key hlast, hkey, List.length_append, List.length_cons]
      omega

/-- A dotted key is read back if it is not too long. -/
theorem readKey?_writePath {path : List String} (hpath : path ≠ []) (hbare : ∀ c ∈ rest.head?, isBare c = false)
    (hdot : (skipSpaces rest).head? ≠ some '.') (hdepth : path.length ≤ depthLimit) :
    readKey? (writePath path ++ rest) = some (path, skipSpaces rest) := by
  have hlength := length_le_writePath path
  have hfuel : path.length ≤ (writePath path ++ rest).length + 1 := by
    rw [List.length_append]
    omega
  rw [readKey?, readKeyParts?_writePath hpath hbare hdot _ hfuel, Option.bind_some]
  exact if_pos hdepth

end ActorPlacement.Toml
