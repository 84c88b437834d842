import ActorPlacement.Duration
import ActorPlacement.Proofs.Text.Cutting
import Mathlib.Algebra.Group.Nat.Defs

/-!
# The grammar of durations

Which texts write a whole number is told by `Decimal.WritesWhole`, without looking at how one is read. Such a number
before `ms`, before `m` or alone counts as that many units, unless there are too many of them, and nothing else is
read there (`Duration.ReadsUnits`). What the text ends in decides which of the readings applies; the endings overlap,
so their order counts.
-/

namespace ActorPlacement

/-! ## Whole numbers -/

/-- A whole number as it may be written: decimal digits, at least one, which a single plus may lead. -/
def Decimal.WritesWhole (text : List Char) (n : Nat) : Prop :=
  ∃ digits, (text = digits ∨ text = '+' :: digits) ∧ digits ≠ [] ∧ (∀ c ∈ digits, c.isDigit = true)
    ∧ Nat.ofDigitChars 10 digits 0 = n

open Decimal (WritesWhole)

/-- Digits are read as the number that they write, if it is small enough. -/
theorem wordOfDigits_eq_some_iff {bits n : Nat} {digits : List Char} :
    (if digits.isEmpty || !digits.all Char.isDigit then none
      else if Decimal.ofDigits digits < Nat.pow 2 bits then some (Decimal.ofDigits digits) else none) = some n
    ↔ digits ≠ [] ∧ (∀ c ∈ digits, c.isDigit = true) ∧ Nat.ofDigitChars 10 digits 0 = n ∧ n < 2 ^ bits := by
  by_cases hdigits : digits ≠ [] ∧ ∀ c ∈ digits, c.isDigit = true
  · rw [if_neg (by simpa using hdigits)]
    constructor
    · intro h
      split at h
      · rename_i hlt
        cases h
        exact ⟨hdigits.1, hdigits.2, rfl, hlt⟩
      · cases h
    · rintro ⟨-, -, rfl, hlt⟩
      exact if_pos hlt
  · rw [if_pos (by simpa [Classical.or_iff_not_imp_left] using hdigits)]
    refine iff_of_false (by simp) ?_
    rintro ⟨hne, hall, -⟩
    exact hdigits ⟨hne, hall⟩

/-- A number of limited size is read from the texts that write one. -/
theorem wordOfText?_eq_some_iff {bits n : Nat} {s : String} :
    wordOfText? bits s = some n ↔ WritesWhole s.toList n ∧ n < 2 ^ bits := by
  have hplus : ¬Char.isDigit '+' = true := by decide
  rw [wordOfText?, wordOfDigits_eq_some_iff]
  split
  · rename_i rest htext
    rw [htext]
    constructor
    · rintro ⟨hne, hall, hvalue, hlt⟩
      exact ⟨⟨rest, .inr rfl, hne, hall, hvalue⟩, hlt⟩
    · rintro ⟨⟨digits, rfl | heq, hne, hall, hvalue⟩, hlt⟩
      · exact absurd (hall '+' List.mem_cons_self) hplus
      · obtain rfl := List.tail_eq_of_cons_eq heq
        exact ⟨hne, hall, hvalue, hlt⟩
  · rename_i hnoPlus
    constructor
    · rintro ⟨hne, hall, hvalue, hlt⟩
      exact ⟨⟨s.toList, .inl rfl, hne, hall, hvalue⟩, hlt⟩
    · rintro ⟨⟨digits, rfl | heq, hne, hall, hvalue⟩, hlt⟩
      · exact ⟨hne, hall, hvalue, hlt⟩
      · exact absurd heq (hnoPlus digits)

/-- A number is written by its digits. -/
theorem writesWhole_toString (n : Nat) : WritesWhole (toString n).toList n := by
  refine ⟨(toString n).toList, .inl rfl, ?_, fun c hc => isDigit_of_mem_toString hc, ?_⟩
  · rw [Nat.toString_eq_ofList_toDigits, String.toList_ofList]
    exact Nat.toDigits_ne_nil
  · rw [Nat.toString_eq_ofList_toDigits, String.toList_ofList]
    exact Nat.ofDigitChars_ten_toDigits

/-- A text writes at most one number. -/
theorem Decimal.WritesWhole.unique {text : List Char} {m n : Nat} (hm : WritesWhole text m)
    (hn : WritesWhole text n) : m = n := by
  have hread : wordOfText? (m + n + 1) (String.ofList text) = some m :=
    wordOfText?_eq_some_iff.2 ⟨by rwa [String.toList_ofList], by
      have := Nat.lt_two_pow_self (n := m + n + 1)
      omega⟩
  have hread' : wordOfText? (m + n + 1) (String.ofList text) = some n :=
    wordOfText?_eq_some_iff.2 ⟨by rwa [String.toList_ofList], by
      have := Nat.lt_two_pow_self (n := m + n + 1)
      omega⟩
  exact Option.some.inj (hread.symm.trans hread')

namespace Duration

/-! ## Units -/

theorem ofNanos?_eq_some_iff {n : Nat} {d : Duration} : ofNanos? n = some d ↔ d.nanos = n := by
  unfold ofNanos?
  constructor
  · intro h
    split at h <;> cases h
    rfl
  · rintro rfl
    exact dif_pos d.lt_limit

/-- What is read is the number that a text writes, times `count` of some unit. Nothing is read if the text writes
none, or one whose multiple does not fit a word of 64 bits. -/
structure ReadsUnits (text : List Char) (count unit : Nat) (result : Option Duration) : Prop where
  read : ∀ n, WritesWhole text n → count * n ≤ 2 ^ 64 - 1 → ∃ d, result = some d ∧ d.nanos = count * n * unit
  refused : (∀ n, WritesWhole text n → 2 ^ 64 - 1 < count * n) → result = none

/-- So many units that a word of 64 bits can count them last no longer than a duration may. -/
theorem exists_ofNanos? {n unit : Nat} (hunit : unit ≤ second) (h : n ≤ 2 ^ 64 - 1) :
    ∃ d, ofNanos? (n * unit) = some d ∧ d.nanos = n * unit := by
  have hlimit : n * unit < UInt64.size * 1000000000 :=
    calc n * unit ≤ (2 ^ 64 - 1) * second := Nat.mul_le_mul h hunit
      _ < UInt64.size * 1000000000 := by decide
  exact ⟨⟨n * unit, hlimit⟩, ofNanos?_eq_some_iff.2 rfl, rfl⟩

theorem readsUnits {text : String} {count unit : Nat} {convert : Nat → Option Duration} (hcount : 0 < count)
    (hunit : unit ≤ second) (hfits : ∀ n, count * n ≤ 2 ^ 64 - 1 → convert n = ofNanos? (count * n * unit))
    (hexceeds : ∀ n < 2 ^ 64, 2 ^ 64 - 1 < count * n → convert n = none) :
    ReadsUnits text.toList count unit ((wordOfText? 64 text).bind convert) where
  read n hn hle := by
    have hself : n ≤ count * n := Nat.le_mul_of_pos_left n hcount
    have hword : wordOfText? 64 text = some n := wordOfText?_eq_some_iff.2 ⟨hn, by omega⟩
    obtain ⟨d, hd, hnanos⟩ := exists_ofNanos? hunit hle
    exact ⟨d, by rw [hword, Option.bind_some, hfits n hle, hd], hnanos⟩
  refused hnone := by
    refine Option.bind_eq_none_iff.2 fun n hword => ?_
    obtain ⟨hn, hlt⟩ := wordOfText?_eq_some_iff.1 hword
    exact hexceeds n hlt (hnone n hn)

/-! ## Endings -/

variable {s rest : String}

theorem getLast?_append_ending {front ending : String} (h : ending.toList ≠ []) :
    (front ++ ending).toList.getLast? = ending.toList.getLast? := by
  rw [String.toList_append, List.getLast?_append, Option.or_of_isSome]
  simpa using h

/-- Texts with different endings differ. -/
theorem append_ne_append {front other tail ending : String} (htail : tail.toList ≠ []) (hending : ending.toList ≠ [])
    (h : tail.toList.getLast? ≠ ending.toList.getLast?) : front ++ tail ≠ other ++ ending := by
  intro heq
  rw [← getLast?_append_ending htail, heq, getLast?_append_ending hending] at h
  exact h rfl

theorem ofText?_of_millis (h : trimmed s = rest ++ "ms") : ofText? s = (wordOfText? 64 rest).bind ofMillis? := by
  rw [ofText?, before?_eq_some_iff.2 h]

theorem ofText?_of_seconds (h : trimmed s = rest ++ "s") (hmillis : ∀ other, trimmed s ≠ other ++ "ms") :
    ofText? s = (floatOfText? rest).bind ofFloatSeconds? := by
  rw [ofText?, before?_eq_none_iff.2 hmillis, before?_eq_some_iff.2 h]

theorem ofText?_of_minutes (h : trimmed s = rest ++ "m") :
    ofText? s = (wordOfText? 64 rest).bind fun m => if 60 * m < UInt64.size then ofSeconds? (60 * m) else none := by
  have hmillis : ∀ other, trimmed s ≠ other ++ "ms" := fun other =>
    h ▸ append_ne_append (by decide) (by decide) (by decide)
  have hseconds : ∀ other, trimmed s ≠ other ++ "s" := fun other =>
    h ▸ append_ne_append (by decide) (by decide) (by decide)
  rw [ofText?, before?_eq_none_iff.2 hmillis, before?_eq_none_iff.2 hseconds, before?_eq_some_iff.2 h]

theorem ofText?_of_bare (hseconds : ∀ other, trimmed s ≠ other ++ "s") (hminutes : ∀ other, trimmed s ≠ other ++ "m") :
    ofText? s = (wordOfText? 64 (trimmed s)).bind ofSeconds? := by
  have hmillis : ∀ other, trimmed s ≠ other ++ "ms" := fun other heq => by
    refine hseconds (other ++ "m") ?_
    rw [heq, String.append_assoc]
    rfl
  rw [ofText?, before?_eq_none_iff.2 hmillis, before?_eq_none_iff.2 hseconds, before?_eq_none_iff.2 hminutes]

theorem readsUnits_millis (h : trimmed s = rest ++ "ms") : ReadsUnits rest.toList 1 millisecond (ofText? s) := by
  rw [ofText?_of_millis h]
  exact readsUnits (by decide) (by decide) (fun n _ => by rw [Nat.one_mul, ofMillis?]) fun n _ _ => by omega

theorem readsUnits_minutes (h : trimmed s = rest ++ "m") : ReadsUnits rest.toList 60 second (ofText? s) := by
  have hsize : UInt64.size = 2 ^ 64 := rfl
  rw [ofText?_of_minutes h]
  refine readsUnits (by decide) (by decide) (fun n hle => ?_) fun n _ hlt => ?_
  · rw [if_pos (by omega), ofSeconds?]
  · exact if_neg (by omega)

theorem readsUnits_bare (hseconds : ∀ other, trimmed s ≠ other ++ "s") (hminutes : ∀ other, trimmed s ≠ other ++ "m") :
    ReadsUnits (trimmed s).toList 1 second (ofText? s) := by
  rw [ofText?_of_bare hseconds hminutes]
  exact readsUnits (by decide) (by decide) (fun n _ => by rw [Nat.one_mul, ofSeconds?]) fun n _ _ => by omega

/-! ## Written numbers -/

/-- The digits of a number, some ending without blanks, and blanks around both. -/
theorem trimmed_number {before after : String} (n : Nat) (ending : String)
    (hbefore : ∀ c ∈ before.toList, isBlank c = true) (hafter : ∀ c ∈ after.toList, isBlank c = true)
    (hending : NoBlank ending.toList) :
    trimmed (before ++ toString n ++ ending ++ after) = toString n ++ ending := by
  have hnumber := (NoBlank.toString_nat n).append hending
  rw [← String.toList_append] at hnumber
  refine trimmed_eq_iff.2 ⟨hnumber.unpadded, before.toList, after.toList, hbefore, hafter, ?_⟩
  simp [String.toList_append]

theorem toString_ne_append {n : Nat} {other ending : String} (hending : ending.toList ≠ [])
    (h : ∀ c ∈ ending.toList.getLast?, c.isDigit = false) : toString n ≠ other ++ ending := by
  intro heq
  obtain ⟨c, hc⟩ := Option.ne_none_iff_exists'.1 (mt List.getLast?_eq_none_iff.1 hending)
  have hmem : c ∈ (toString n).toList := by
    rw [heq, String.toList_append]
    exact List.mem_append_right _ (List.mem_of_getLast? hc)
  have hdigit := isDigit_of_mem_toString hmem
  rw [h c hc] at hdigit
  cases hdigit

section Numbers

variable {before after : String} (hbefore : ∀ c ∈ before.toList, isBlank c = true)
  (hafter : ∀ c ∈ after.toList, isBlank c = true) (n : Nat)

include hbefore hafter

theorem ofText?_millis (hn : n ≤ 2 ^ 64 - 1) :
    ∃ d, ofText? (before ++ toString n ++ "ms" ++ after) = some d ∧ d.nanos = n * millisecond := by
  have hreads := readsUnits_millis (trimmed_number n "ms" hbefore hafter (by decide))
  obtain ⟨d, hd, hnanos⟩ := hreads.read n (writesWhole_toString n) (by omega)
  exact ⟨d, hd, by rw [hnanos, Nat.one_mul]⟩

theorem readsUnits_writtenMinutes :
    ReadsUnits (toString n).toList 60 second (ofText? (before ++ toString n ++ "m" ++ after)) :=
  readsUnits_minutes (trimmed_number n "m" hbefore hafter (by decide))

theorem ofText?_seconds (hn : n ≤ 2 ^ 64 - 1) :
    ∃ d, ofText? (before ++ toString n ++ after) = some d ∧ d.nanos = n * second := by
  have htrimmed : trimmed (before ++ toString n ++ after) = toString n := by
    have h := trimmed_number n "" hbefore hafter (by decide)
    rwa [String.append_empty, String.append_empty] at h
  have hseconds : ∀ other, trimmed (before ++ toString n ++ after) ≠ other ++ "s" := fun other => by
    rw [htrimmed]
    exact toString_ne_append (by decide) (by simp)
  have hminutes : ∀ other, trimmed (before ++ toString n ++ after) ≠ other ++ "m" := fun other => by
    rw [htrimmed]
    exact toString_ne_append (by decide) (by simp)
  have hreads := readsUnits_bare hseconds hminutes
  rw [htrimmed] at hreads
  obtain ⟨d, hd, hnanos⟩ := hreads.read n (writesWhole_toString n) (by omega)
  exact ⟨d, hd, by rw [hnanos, Nat.one_mul]⟩

end Numbers

/-- **Durations are read by their grammar.** What a text without the blanks around it ends in decides how it is read:
before `ms` a whole number of milliseconds, else before `s` a double that is rounded to nanoseconds, before `m` a whole
number of minutes, and without any of these a whole number of seconds. A whole number is digits that a plus may lead;
the number and its seconds have to fit a word of 64 bits. So the text of such a number is never read in another unit
than its own, whatever blanks surround it. -/
theorem ofText?_grammar (s : String) :
    (∀ rest, trimmed s = rest ++ "ms" → ReadsUnits rest.toList 1 millisecond (ofText? s))
      ∧ (∀ rest, trimmed s = rest ++ "s" → (∀ other, trimmed s ≠ other ++ "ms") →
        ofText? s = (floatOfText? rest).bind ofFloatSeconds?)
      ∧ (∀ rest, trimmed s = rest ++ "m" → ReadsUnits rest.toList 60 second (ofText? s))
      ∧ ((∀ other, trimmed s ≠ other ++ "s") → (∀ other, trimmed s ≠ other ++ "m") →
        ReadsUnits (trimmed s).toList 1 second (ofText? s))
      ∧ ∀ (before after : String) (n : Nat), n ≤ 2 ^ 64 - 1 → (∀ c ∈ before.toList, isBlank c = true) →
        (∀ c ∈ after.toList, isBlank c = true) →
        (∃ d, ofText? (before ++ toString n ++ "ms" ++ after) = some d ∧ d.nanos = n * millisecond)
          ∧ (60 * n ≤ 2 ^ 64 - 1 →
            ∃ d, ofText? (before ++ toString n ++ "m" ++ after) = some d ∧ d.nanos = 60 * n * second)
          ∧ (2 ^ 64 - 1 < 60 * n → ofText? (before ++ toString n ++ "m" ++ after) = none)
          ∧ ∃ d, ofText? (before ++ toString n ++ after) = some d ∧ d.nanos = n * second := by
  refine ⟨fun rest => readsUnits_millis, fun rest => ofText?_of_seconds, fun rest => readsUnits_minutes,
    readsUnits_bare, fun before after n hn hbefore hafter => ?_⟩
  have hminutes := readsUnits_writtenMinutes hbefore hafter n
  have hwrites := writesWhole_toString n
  refine ⟨ofText?_millis hbefore hafter n hn, hminutes.read n hwrites, fun hlt => ?_,
    ofText?_seconds hbefore hafter n hn⟩
  refine hminutes.refused fun m hm => ?_
  rwa [hm.unique hwrites]

/-- Half a second is read as milliseconds, a second and a half as a double that is rounded to nanoseconds, and more
minutes than a word of 64 bits has seconds for are refused. A plus may lead a bare number. -/
theorem ofText?_grammar_units :
    (∃ d, ofText? "\t500ms " = some d ∧ d.nanos = 500 * millisecond)
      ∧ (∃ d, ofText? "1.5s" = some d ∧ d.nanos = 1500 * millisecond)
      ∧ ofText? "307445734561825861m" = none
      ∧ (∃ d, ofText? "+10" = some d ∧ d.nanos = 10 * second)
      ∧ ∃ d, ofText? "  7m\n" = some d ∧ d.nanos = 60 * 7 * second := by
  obtain ⟨hmillis, -, -, -, -⟩ := ofText?_grammar "\t500ms "
  obtain ⟨-, hseconds, -, -, -⟩ := ofText?_grammar "1.5s"
  obtain ⟨-, -, hminutes, -, -⟩ := ofText?_grammar "307445734561825861m"
  obtain ⟨-, -, -, hbare, -⟩ := ofText?_grammar "+10"
  obtain ⟨-, -, -, -, hnumber⟩ := ofText?_grammar ""
  refine ⟨?_, ?_, ?_, ?_, ?_⟩
  · exact (hmillis "500" (by decide)).read 500 (writesWhole_toString 500) (by decide)
  · have hdouble : (floatOfText? "1.5").bind ofFloatSeconds? = some ⟨1500 * millisecond, by decide⟩ := by
      decide +kernel
    exact ⟨_, (hseconds "1.5" (by decide) (before?_eq_none_iff.1 (by decide))).trans hdouble, rfl⟩
  · refine (hminutes "307445734561825861" (by decide)).refused fun n hn => ?_
    rw [hn.unique (writesWhole_toString 307445734561825861)]
    decide
  · have hplus : WritesWhole (trimmed "+10").toList 10 := ⟨['1', '0'], .inr (by decide), by decide, by simp, by decide⟩
    exact (hbare (before?_eq_none_iff.1 (by decide)) (before?_eq_none_iff.1 (by decide))).read 10 hplus (by decide)
  · exact (hnumber "  " "\n" 7 (by decide) (by simp [isBlank]) (by simp [isBlank])).2.1 (by decide)

end Duration

end ActorPlacement
