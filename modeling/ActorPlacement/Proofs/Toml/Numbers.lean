import ActorPlacement.Overrides.Value
import ActorPlacement.Proofs.Text.Cutting
import ActorPlacement.Toml.Number

/-!
# TOML numbers are read back

Digits before a point or before the end of a line are neither a date nor a time nor a number in another base, so they
begin a decimal number (`readStampOrNumber?_digits`). A whole number that fits is read back from what is written of it
(`readStampOrNumber?_whole`). A float is written as digits around a point, so that whatever is read of it alone is
read of it on a line, too (`ReadsFloat.on_line`).
-/

namespace ActorPlacement.Toml

variable {c d : Char} {cs digits whole fraction rest : List Char}

/-! ## Digits -/

theorem isDigitOf_ten (c : Char) : isDigitOf 10 c = c.isDigit := by
  unfold isDigitOf Json.hexValue?
  cases hdigit : c.isDigit with
  | true =>
    have hrange : 48 ≤ c.toNat ∧ c.toNat ≤ 57 := Char.isDigit_iff_toNat.1 hdigit
    have hlt : c.toNat - '0'.toNat < 10 := by
      simp only [Char.reduceToNat]
      omega
    simpa using hlt
  | false =>
    rw [if_neg (by simp)]
    split
    · rename_i n hn
      split at hn
      · cases hn
        simp
      · split at hn <;> cases hn
        simp
    · rfl

theorem ne_of_isDigit (hc : c.isDigit = true) (hd : d.isDigit = false) : c ≠ d := by
  rintro rfl
  rw [hc] at hd
  cases hd

/-- Decimal digits, at least one. -/
structure Digits (cs : List Char) : Prop where
  some_digit : cs ≠ []
  all_digits : ∀ c ∈ cs, c.isDigit = true

theorem digits_toDigits (n : Nat) : Digits (Nat.toDigits 10 n) where
  some_digit := Nat.toDigits_ne_nil
  all_digits _ hc := Nat.isDigit_of_mem_toDigits (by decide) (by decide) hc

/-- What ends a run of digits: they are not parted here. -/
def EndsRun (rest : List Char) : Prop := ∀ c ∈ rest.head?, c.isDigit = false ∧ c ≠ '_'

/-- Digits are read up to what ends them. -/
theorem spanParted?_digits (hdigits : ∀ c ∈ digits, c.isDigit = true) (hrest : EndsRun rest) :
    spanParted? 10 (digits ++ rest) = some (digits, rest) := by
  induction digits with
  | nil =>
    cases rest with
    | nil => rfl
    | cons c rest =>
      obtain ⟨hdigit, hmark⟩ := hrest c rfl
      simp [spanParted?, hmark, isDigitOf_ten, hdigit]
  | cons d digits ih =>
    obtain ⟨hd, hdigits⟩ := List.forall_mem_cons.1 hdigits
    have hmark : d ≠ '_' := ne_of_isDigit hd rfl
    simp [spanParted?, hmark, isDigitOf_ten, hd, ih hdigits]

theorem readParted?_digits (h : Digits digits) (hrest : EndsRun rest) :
    readParted? 10 (digits ++ rest) = some (digits, rest) := by
  obtain ⟨d, digits, rfl⟩ := List.exists_cons_of_ne_nil h.some_digit
  obtain ⟨hd, hmore⟩ := List.forall_mem_cons.1 h.all_digits
  simp [readParted?, isDigitOf_ten, hd, spanParted?_digits hmore hrest]

theorem readWhole?_digits (h : Digits digits) (hzero : digits.head? = some '0' → digits = ['0'])
    (hrest : EndsRun rest) : readWhole? (digits ++ rest) = some (digits, rest) := by
  by_cases hlead : digits.head? = some '0'
  · rw [hzero hlead]
    rfl
  · have hread := readParted?_digits h hrest
    obtain ⟨d, digits, rfl⟩ := List.exists_cons_of_ne_nil h.some_digit
    have hd : d ≠ '0' := by simpa using hlead
    rw [List.cons_append] at hread ⊢
    simpa [readWhole?, hd] using hread

theorem head?_toDigits {n : Nat} (h : 0 < n) : (Nat.toDigits 10 n).head? ≠ some '0' := by
  induction n using Nat.strongRecOn with
  | ind n ih =>
    by_cases hlt : n < 10
    · rw [Nat.toDigits_of_lt_base hlt]
      intro hhead
      have hzero : n = 0 := Nat.digitChar_eq_zero.1 (Option.some.inj hhead)
      omega
    · rw [Nat.toDigits_of_base_le (by decide) (by omega), List.head?_append,
        Option.or_of_isSome (by simp [Nat.toDigits_ne_nil])]
      exact ih (n / 10) (by omega) (by omega)

/-- A number is written without needless zeros. -/
theorem toDigits_of_head?_eq_zero {n : Nat} (h : (Nat.toDigits 10 n).head? = some '0') : Nat.toDigits 10 n = ['0'] := by
  cases n with
  | zero => rfl
  | succ n => exact absurd h (head?_toDigits (Nat.succ_pos n))

/-! ## Neither a date nor a time -/

theorem readField?_eq_none {count : Nat} (low high : Nat) (hcount : count ≠ 0) (h : ∀ c ∈ cs.head?, c.isDigit = false) :
    readField? count low high cs = none := by
  obtain ⟨count, rfl⟩ := Nat.exists_eq_add_one_of_ne_zero hcount
  cases cs with
  | nil =>
    have hnot : ¬([] : List Char).length = count + 1 := (Nat.succ_ne_zero count).symm
    simp [readField?]
  | cons c cs =>
    refine if_neg fun hfield => ?_
    have hdigit := List.all_eq_true.1 hfield.2.1 c List.mem_cons_self
    rw [h c rfl] at hdigit
    cases hdigit

theorem readStamp?_of_no_digit (h : ∀ c ∈ cs.head?, c.isDigit = false) : readStamp? cs = none := by
  have hdate : readDate? cs = none := by
    rw [readDate?, readField?_eq_none 0 9999 (by decide) h]
    rfl
  have htime : readTime? cs = none := by
    rw [readTime?, readField?_eq_none 0 23 (by decide) h]
    rfl
  rw [readStamp?, hdate, htime]

/-- A field is taken from the digits that lead a text. -/
theorem eq_drop_of_readField? {count low high n : Nat} (hc : c.isDigit = false)
    (h : readField? count low high (digits ++ c :: rest) = some (n, cs)) : cs = digits.drop count ++ c :: rest := by
  unfold readField? at h
  dsimp only at h
  split at h
  · rename_i hfield
    have hle : count ≤ digits.length := by
      refine Nat.le_of_not_lt fun hlt => ?_
      have hmem : c ∈ (digits ++ c :: rest).take count := by
        obtain ⟨k, hk⟩ := Nat.exists_eq_add_of_lt hlt
        rw [List.take_append, hk, Nat.add_assoc, Nat.add_sub_cancel_left]
        exact List.mem_append_right _ List.mem_cons_self
      have hdigit := List.all_eq_true.1 hfield.2.1 c hmem
      rw [hc] at hdigit
      cases hdigit
    cases h
    rw [List.drop_append_of_le_length hle]
  · cases h

theorem expect?_eq_none (mark : Char) (hmark : mark.isDigit = false) (hdigits : ∀ c ∈ digits, c.isDigit = true)
    (hc : c ≠ mark) (count : Nat) : expect? mark (digits.drop count ++ c :: rest) = none := by
  cases hleft : digits.drop count with
  | nil => simp [expect?, hc]
  | cons d left =>
    have hd := hdigits d (List.mem_of_mem_drop (hleft ▸ List.mem_cons_self))
    have hne : d ≠ mark := ne_of_isDigit hd hmark
    simp [expect?, hne]

/-- Digits are no date unless a dash follows them, and no time unless a colon does. -/
theorem readStamp?_of_digits (hdigits : ∀ c ∈ digits, c.isDigit = true) (hc : c.isDigit = false) (hdash : c ≠ '-')
    (hcolon : c ≠ ':') : readStamp? (digits ++ c :: rest) = none := by
  have hdate : readDate? (digits ++ c :: rest) = none := by
    unfold readDate?
    cases hyear : readField? 4 0 9999 (digits ++ c :: rest) with
    | none => rfl
    | some field =>
      obtain ⟨year, cs⟩ := field
      obtain rfl := eq_drop_of_readField? hc hyear
      simp [expect?_eq_none '-' rfl hdigits hdash]
  have htime : readTime? (digits ++ c :: rest) = none := by
    unfold readTime?
    cases hhour : readField? 2 0 23 (digits ++ c :: rest) with
    | none => rfl
    | some field =>
      obtain ⟨hour, cs⟩ := field
      obtain rfl := eq_drop_of_readField? hc hhour
      simp [expect?_eq_none ':' rfl hdigits hcolon]
  rw [readStamp?, hdate, htime]

/-! ## Decimal numbers -/

/-- A minus sign for what is negative. -/
def signed (negative : Bool) (cs : List Char) : List Char := if negative then '-' :: cs else cs

theorem signed_append (negative : Bool) (cs rest : List Char) :
    signed negative cs ++ rest = signed negative (cs ++ rest) := by
  cases negative <;> rfl

/-- Read a decimal number after its sign. -/
def readDecimal? (negative : Bool) (cs : List Char) : Option (Tree Float × List Char) :=
  (readWhole? cs).bind fun (whole, rest) => readDecimalTail? negative whole rest

theorem readDecimal?_of_whole (negative : Bool) (h : readWhole? cs = some (whole, rest)) :
    readDecimal? negative cs = readDecimalTail? negative whole rest := by
  rw [readDecimal?, h]
  rfl

theorem readUnsigned?_digit (negative : Bool) (hd : d.isDigit = true) (tail : List Char) :
    readUnsigned? negative (d :: tail) = readDecimal? negative (d :: tail) := by
  unfold readUnsigned?
  split
  · rename_i heq
    exact absurd (List.cons.inj heq).1 (ne_of_isDigit hd rfl)
  · rename_i heq
    exact absurd (List.cons.inj heq).1 (ne_of_isDigit hd rfl)
  · rfl

/-- A number's digits that no base's mark follows. -/
theorem readNumber?_digit (hd : d.isDigit = true) {tail : List Char} (hmark : ∀ c ∈ tail.head?, c ∉ ['x', 'o', 'b']) :
    readNumber? (d :: tail) = readUnsigned? false (d :: tail) := by
  unfold readNumber?
  split
  iterate 3
    · rename_i mark more heq
      obtain rfl := (List.cons.inj heq).2
      exact absurd (by simp) (hmark _ rfl)
  iterate 2
    · rename_i heq
      exact absurd (List.cons.inj heq).1 (ne_of_isDigit hd rfl)
  · rfl

/-- Digits before a point or before the end of a line begin a decimal number. -/
theorem readStampOrNumber?_digits (negative : Bool) (h : Digits digits) (hc : c = '.' ∨ c = '\n') :
    readStampOrNumber? (signed negative (digits ++ c :: rest)) = readDecimal? negative (digits ++ c :: rest) := by
  obtain ⟨d, more, rfl⟩ := List.exists_cons_of_ne_nil h.some_digit
  obtain ⟨hd, hmore⟩ := List.forall_mem_cons.1 h.all_digits
  have hother : c.isDigit = false ∧ c ≠ '-' ∧ c ≠ ':' ∧ c ∉ ['x', 'o', 'b'] := by
    rcases hc with rfl | rfl <;> simp
  rw [List.cons_append]
  cases negative with
  | true =>
    have hstamp : readStamp? (signed true (d :: (more ++ c :: rest))) = none :=
      readStamp?_of_no_digit fun c hc => by cases hc; rfl
    rw [readStampOrNumber?, hstamp]
    exact readUnsigned?_digit true hd _
  | false =>
    have hstamp : readStamp? (d :: more ++ c :: rest) = none :=
      readStamp?_of_digits h.all_digits hother.1 hother.2.1 hother.2.2.1
    have hmark : ∀ e ∈ (more ++ c :: rest).head?, e ∉ ['x', 'o', 'b'] := by
      intro e he
      cases more with
      | nil =>
        cases he
        exact hother.2.2.2
      | cons m more =>
        cases he
        have hdigit := hmore e List.mem_cons_self
        simp [ne_of_isDigit hdigit (d := 'x') rfl, ne_of_isDigit hdigit (d := 'o') rfl,
          ne_of_isDigit hdigit (d := 'b') rfl]
    rw [← readUnsigned?_digit false hd, ← readNumber?_digit hd hmark]
    show readStampOrNumber? (d :: more ++ c :: rest) = _
    rw [readStampOrNumber?, hstamp]
    rfl

/-- A whole part is all of a number that neither a fraction nor an exponent follows. -/
theorem readDecimalTail?_whole (negative : Bool) (whole : List Char)
    (hrest : ∀ c ∈ rest.head?, c ≠ '.' ∧ isExponentMark c = false) :
    readDecimalTail? negative whole rest
      = (wholeLeaf? negative (Decimal.ofDigits whole)).map fun leaf => (leaf, rest) := by
  cases rest with
  | nil => rfl
  | cons c rest =>
    obtain ⟨hpoint, hmark⟩ := hrest c rfl
    simp [readDecimalTail?, hmark]

/-- A number's fraction is read up to its end. -/
theorem readDecimalTail?_fraction (negative : Bool) (whole : List Char) (h : Digits fraction) (hends : EndsRun rest)
    (hmark : ∀ c ∈ rest.head?, isExponentMark c = false) :
    readDecimalTail? negative whole ('.' :: (fraction ++ rest))
      = (floatLeaf? { negative, digits := Decimal.ofDigits (whole ++ fraction), exponent := -fraction.length }).map
          fun leaf => (leaf, rest) := by
  rw [readDecimalTail?, readParted?_digits h hends, Option.bind_some]
  cases rest with
  | nil => rfl
  | cons c rest => simp [hmark c rfl]

/-! ## Whole numbers -/

theorem toList_toString_int (n : Int) : (toString n).toList = signed (decide (n < 0)) (Nat.toDigits 10 n.natAbs) := by
  cases n with
  | ofNat n =>
    show (toString n).toList = _
    rw [Nat.toString_eq_ofList_toDigits, String.toList_ofList]
    rfl
  | negSucc n =>
    show ("-" ++ toString (n + 1)).toList = _
    rw [String.toList_append, Nat.toString_eq_ofList_toDigits, String.toList_ofList]
    simp [signed, Int.negSucc_lt_zero]

theorem wholeLeaf?_of_fitsWord {n : Int} (h : OptionValue.fitsWord n = true) :
    wholeLeaf? (decide (n < 0)) n.natAbs = some (.whole n) := by
  simp only [OptionValue.fitsWord, Bool.and_eq_true, decide_eq_true_eq] at h
  rw [wholeLeaf?, if_pos (by simp only [decide_eq_true_eq]; omega)]
  congr
  by_cases hneg : n < 0
  · rw [decide_eq_true hneg, if_pos rfl]
    omega
  · rw [decide_eq_false hneg, if_neg (by simp)]
    omega

/-- A whole number on a line of its own is read up to the end of the line. -/
theorem readStampOrNumber?_whole {n : Int} (hfits : OptionValue.fitsWord n = true) (rest : List Char) :
    readStampOrNumber? ((toString n).toList ++ '\n' :: rest) = some (.whole n, '\n' :: rest) := by
  have hdigits := digits_toDigits n.natAbs
  have hends : EndsRun ('\n' :: rest) := fun c hc => by
    cases hc
    decide
  have hvalue : Decimal.ofDigits (Nat.toDigits 10 n.natAbs) = n.natAbs := Nat.ofDigitChars_ten_toDigits
  rw [toList_toString_int, signed_append, readStampOrNumber?_digits _ hdigits (.inr rfl),
    readDecimal?_of_whole _ (readWhole?_digits hdigits toDigits_of_head?_eq_zero hends),
    readDecimalTail?_whole _ _ (by simp [isExponentMark]), hvalue, wholeLeaf?_of_fitsWord hfits]
  rfl

/-! ## Floats -/

section Floats

open FloatStyle (toml)

theorem digits_replicate_append (count : Nat) (h : Digits digits) : Digits (List.replicate count '0' ++ digits) where
  some_digit := List.append_ne_nil_of_right_ne_nil _ h.some_digit
  all_digits c hc := by
    rcases List.mem_append.1 hc with hzero | hdigit
    · rw [List.eq_of_mem_replicate hzero]
      rfl
    · exact h.all_digits c hdigit

theorem exists_withPoint (h : Digits digits) {count : Nat} (hcount : count ≠ 0) :
    ∃ whole fraction, Digits whole ∧ Digits fraction
      ∧ (FloatStyle.withPoint digits count).toList = whole ++ '.' :: fraction := by
  -- the padding leaves a digit before the point
  let padded := List.replicate (count + 1 - digits.length) '0' ++ digits
  have hpadded : ∀ c ∈ padded, c.isDigit = true := (digits_replicate_append _ h).all_digits
  have hlength : count < padded.length := by
    simp only [padded, List.length_append, List.length_replicate]
    omega
  refine ⟨padded.take (padded.length - count), padded.drop (padded.length - count), ⟨?_, ?_⟩, ⟨?_, ?_⟩, ?_⟩
  · refine List.ne_nil_of_length_pos ?_
    rw [List.length_take]
    omega
  · exact fun c hc => hpadded c (List.mem_of_mem_take hc)
  · refine List.ne_nil_of_length_pos ?_
    rw [List.length_drop]
    omega
  · exact fun c hc => hpadded c (List.mem_of_mem_drop hc)
  · simp [FloatStyle.withPoint, padded]

theorem exists_inPositions (h : Digits digits) (exponent : Int) :
    ∃ whole fraction, Digits whole ∧ Digits fraction
      ∧ (toml.inPositions digits exponent).toList = whole ++ '.' :: fraction := by
  unfold FloatStyle.inPositions
  split
  · exact exists_withPoint h (by omega)
  · refine ⟨digits ++ List.replicate exponent.natAbs '0', ['0'], ⟨?_, ?_⟩, ⟨by simp, by simp⟩, by simp [toml]⟩
    · exact List.append_ne_nil_of_left_ne_nil h.some_digit _
    · intro c hc
      rcases List.mem_append.1 hc with hdigit | hzero
      · exact h.all_digits c hdigit
      · rw [List.eq_of_mem_replicate hzero]
        rfl

/-- A float is a word, or digits around a point. -/
theorem toList_toml_write (x : Float) :
    (toml.write x).toList ∈ [['n', 'a', 'n'], ['i', 'n', 'f'], ['-', 'i', 'n', 'f']]
    ∨ ∃ negative whole fraction, Digits whole ∧ Digits fraction
      ∧ (toml.write x).toList = signed negative (whole ++ '.' :: fraction) := by
  unfold FloatStyle.write
  split
  · exact .inl (by decide)
  · rename_i negative _
    cases negative <;> exact .inl (by decide)
  · rename_i negative mantissa exponent _
    have hmagnitude : ∃ whole fraction, Digits whole ∧ Digits fraction
        ∧ (if mantissa = 0 then "0" ++ toml.whole else toml.magnitude mantissa exponent).toList
          = whole ++ '.' :: fraction := by
      split
      · exact ⟨['0'], ['0'], ⟨by simp, by simp⟩, ⟨by simp, by simp⟩, rfl⟩
      · exact exists_inPositions (digits_toDigits _) _
    obtain ⟨whole, fraction, hwhole, hfraction, hwritten⟩ := hmagnitude
    refine .inr ⟨negative, whole, fraction, hwhole, hfraction, ?_⟩
    rw [String.toList_append, hwritten]
    cases negative <;> rfl

/-- Digits around a point, with no needless zero in front, are read as a float. -/
theorem readStampOrNumber?_float (negative : Bool) (hwhole : Digits whole) (hfraction : Digits fraction)
    (hzero : whole.head? = some '0' → whole = ['0']) (hends : EndsRun rest)
    (hmark : ∀ c ∈ rest.head?, isExponentMark c = false) :
    readStampOrNumber? (signed negative (whole ++ '.' :: (fraction ++ rest)))
      = (floatLeaf? { negative, digits := Decimal.ofDigits (whole ++ fraction), exponent := -fraction.length }).map
          fun leaf => (leaf, rest) := by
  rw [readStampOrNumber?_digits negative hwhole (.inl rfl),
    readDecimal?_of_whole negative (readWhole?_digits hwhole hzero (by simp [EndsRun])),
    readDecimalTail?_fraction negative whole hfraction hends hmark]

/-- After a needless zero in front no float is read. -/
theorem readStampOrNumber?_zero_ne_real (negative : Bool) (h : Digits ('0' :: digits)) (hne : digits ≠ []) (x : Float)
    (tail rest : List Char) :
    readStampOrNumber? (signed negative ('0' :: digits ++ '.' :: tail)) ≠ some (.real x, rest) := by
  obtain ⟨d, more, rfl⟩ := List.exists_cons_of_ne_nil hne
  have hd : d.isDigit = true := h.all_digits d (by simp)
  have hmark : d ≠ '.' ∧ isExponentMark d = false := by
    refine ⟨ne_of_isDigit hd rfl, ?_⟩
    simp [isExponentMark, ne_of_isDigit hd (d := 'e') rfl, ne_of_isDigit hd (d := 'E') rfl]
  rw [readStampOrNumber?_digits negative h (.inl rfl), readDecimal?_of_whole negative rfl,
    readDecimalTail?_whole negative ['0'] (fun c hc => by cases hc; exact hmark)]
  intro heq
  obtain ⟨leaf, hleaf, hpair⟩ := Option.map_eq_some_iff.1 heq
  cases hpair
  unfold wholeLeaf? at hleaf
  split at hleaf <;> cases hleaf

/-- A word for what is no number is read whatever follows it. -/
theorem readStampOrNumber?_word (hword : cs ∈ [['n', 'a', 'n'], ['i', 'n', 'f'], ['-', 'i', 'n', 'f']]) :
    ∃ tree, ∀ rest, readStampOrNumber? (cs ++ rest) = some (tree, rest) := by
  have hread (word : List Char) (hne : word ≠ []) (hdigit : ∀ c ∈ word.head?, c.isDigit = false) (rest : List Char) :
      readStampOrNumber? (word ++ rest) = readNumber? (word ++ rest) := by
    have hstamp : readStamp? (word ++ rest) = none := by
      obtain ⟨c, word, rfl⟩ := List.exists_cons_of_ne_nil hne
      exact readStamp?_of_no_digit hdigit
    rw [readStampOrNumber?, hstamp]
  simp only [List.mem_cons, List.not_mem_nil, or_false] at hword
  rcases hword with rfl | rfl | rfl <;> exact ⟨_, fun rest => (hread _ (by simp) (by simp) rest).trans rfl⟩

/-- A float that is read back from what is written of it. -/
def ReadsFloat (x : Float) : Prop := readStampOrNumber? (toml.write x).toList = some (.real x, [])

/-- It is read back on a line, too, up to the end of the line. -/
theorem ReadsFloat.on_line {x : Float} (h : ReadsFloat x) (rest : List Char) :
    readStampOrNumber? ((toml.write x).toList ++ '\n' :: rest) = some (.real x, '\n' :: rest) := by
  unfold ReadsFloat at h
  rcases toList_toml_write x with hword | ⟨negative, whole, fraction, hwhole, hfraction, hwritten⟩
  · obtain ⟨tree, hread⟩ := readStampOrNumber?_word hword
    have halone := hread []
    rw [List.append_nil, h] at halone
    rw [hread, (Prod.mk.inj (Option.some.inj halone)).1]
  · rw [hwritten] at h ⊢
    rw [signed_append, List.append_assoc, List.cons_append]
    by_cases hzero : whole.head? = some '0' → whole = ['0']
    · have halone : readStampOrNumber? (signed negative (whole ++ '.' :: (fraction ++ []))) = _ :=
        readStampOrNumber?_float negative hwhole hfraction hzero (by simp [EndsRun]) (by simp)
      rw [List.append_nil, h] at halone
      obtain ⟨leaf, hleaf, hpair⟩ := Option.map_eq_some_iff.1 halone.symm
      cases hpair
      rw [readStampOrNumber?_float negative hwhole hfraction hzero (by simp [EndsRun]) (by simp [isExponentMark]),
        hleaf]
      rfl
    · obtain ⟨hlead, hmore⟩ := Classical.not_imp.1 hzero
      obtain ⟨d, digits, rfl⟩ := List.exists_cons_of_ne_nil hwhole.some_digit
      cases hlead
      exact absurd h (readStampOrNumber?_zero_ne_real negative hwhole (by simpa using hmore) x _ _)

end Floats

end ActorPlacement.Toml
