import ActorPlacement.Json.Printer
import ActorPlacement.Proofs.Text.Cutting
import ActorPlacement.Quantity.Double

/-!
# The ends of compact JSON

A compact text has no blank at its ends, so cutting blanks off leaves it as it is (`Json.trimmed_compact`). Texts,
lists and tables stand between marks of their own; words and numbers have no blank at all.
-/

namespace ActorPlacement

namespace NoBlank

theorem replicate_zero (n : Nat) : NoBlank (List.replicate n '0') := by
  intro c hc
  obtain rfl := List.eq_of_mem_replicate hc
  rfl

end NoBlank

/-! ## Numbers -/

namespace FloatStyle

variable (style : FloatStyle) {digits : List Char}

theorem noBlank_withPoint (h : NoBlank digits) (fraction : Nat) : NoBlank (withPoint digits fraction).toList := by
  have hpadded := (NoBlank.replicate_zero (fraction + 1 - digits.length)).append h
  simp only [withPoint, String.toList_append, String.toList_ofList]
  refine ((hpadded.of_subset (List.take_subset _ _)).append ?_).append (hpadded.of_subset (List.drop_subset _ _))
  decide

theorem noBlank_inPositions (hwhole : NoBlank style.whole.toList) (h : NoBlank digits) (exponent : Int) :
    NoBlank (style.inPositions digits exponent).toList := by
  unfold inPositions
  split
  · exact noBlank_withPoint h _
  · simp only [String.toList_append, String.toList_ofList]
    exact (h.append (NoBlank.replicate_zero _)).append hwhole

theorem noBlank_withPower (h : NoBlank digits) (power : Int) : NoBlank (withPower digits power).toList := by
  have hmark : NoBlank (if power < 0 then "e-" else "e+").toList := by split <;> decide
  unfold withPower
  simp only [String.toList_append]
  refine (NoBlank.append ?_ hmark).append (NoBlank.toString_nat _)
  split
  · simp [NoBlank]
  · simpa using h
  · rename_i d rest _
    have hpoint : NoBlank ".".toList := by decide
    simp only [String.toList_append, String.toList_ofList]
    exact ((h.of_subset (by simp)).append hpoint).append (h.of_subset (List.subset_cons_self d rest))

theorem noBlank_magnitude (hwhole : NoBlank style.whole.toList) (mantissa : Nat) (exponent : Int) :
    NoBlank (style.magnitude mantissa exponent).toList := by
  have hdigits : NoBlank (Decimal.digitsOf (shortest style.tie mantissa exponent).1) :=
    NoBlank.of_digits fun c hc => Nat.isDigit_of_mem_toDigits (by omega) (by omega) hc
  unfold magnitude
  dsimp only
  split
  · exact noBlank_inPositions style hwhole hdigits _
  · split
    · exact noBlank_inPositions style hwhole hdigits _
    · exact noBlank_withPower hdigits _

/-- A style whose words have no blanks writes none. -/
theorem noBlank_write (hwhole : NoBlank style.whole.toList) (hnan : NoBlank style.nan.toList)
    (hinfinite : ∀ negative, NoBlank (style.infinite negative).toList) (x : Float) :
    NoBlank (style.write x).toList := by
  unfold write
  cases Binary64.ofFloat x with
  | nan => exact hnan
  | infinite negative => exact hinfinite negative
  | finite negative mantissa exponent =>
    have hsign : NoBlank (if negative then "-" else "").toList := by cases negative <;> decide
    have hzero : NoBlank "0".toList := by decide
    dsimp only
    rw [String.toList_append]
    refine hsign.append ?_
    split
    · rw [String.toList_append]
      exact hzero.append hwhole
    · exact noBlank_magnitude style hwhole mantissa exponent

end FloatStyle

theorem noBlank_toString_int (n : Int) : NoBlank (toString n).toList := by
  cases n with
  | ofNat n => exact NoBlank.toString_nat n
  | negSucc n =>
    have hsign : NoBlank "-".toList := by decide
    show NoBlank ("-" ++ toString (n + 1)).toList
    rw [String.toList_append]
    exact hsign.append (NoBlank.toString_nat (n + 1))

/-! ## Documents -/

namespace Json

/-- What stands between two marks has no blank at its ends. -/
theorem unpadded_between (opening closing : Char) (body : List Char) (hopening : isBlank opening = false)
    (hclosing : isBlank closing = false) : Unpadded (opening :: body ++ [closing]) := by
  constructor
  · simpa using hopening
  · rw [List.getLast?_concat]
    simpa using hclosing

theorem unpadded_compact (tree : Tree Float) : Unpadded (compact tree).toList := by
  cases tree with
  | absent | stamp | unread => exact NoBlank.unpadded (by decide)
  | flag value => exact NoBlank.unpadded (by cases value <;> decide)
  | whole value => exact (noBlank_toString_int value).unpadded
  | real value =>
    have hnull : NoBlank "null".toList := by decide
    exact (FloatStyle.noBlank_write .json (by decide) hnull (fun _ => hnull) value).unpadded
  | text value =>
    rw [compact, quoted, String.toList_ofList]
    exact unpadded_between '"' '"' _ (by decide) (by decide)
  | list items =>
    simp only [compact, String.toList_append]
    exact unpadded_between '[' ']' _ (by decide) (by decide)
  | table entries =>
    simp only [compact, String.toList_append]
    exact unpadded_between '\x7b' '\x7d' _ (by decide) (by decide)

theorem trimmed_compact (tree : Tree Float) : trimmed (compact tree) = compact tree :=
  trimmed_of_unpadded (unpadded_compact tree)

end Json

end ActorPlacement
