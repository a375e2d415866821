import Avionicpp.Nmea0183.Coordinates

/-! # Relayed coordinates

A client that reads a coordinate out of a sentence and sets it in another one goes from the text to
decimal degrees and back. The text and the letter come out as they went in if the minutes are below
sixty, but for a zero in the south or in the west, of which the sign gets lost on the way.
-/
namespace Avionicpp.Nmea0183
open Foundations DirectionIndicator
set_option autoImplicit false

/-! ## The text -/

/-- Digits of degrees, two of minutes, and four decimals. -/
structure CoordinateText (degreeDigits : ℕ) where
  degrees : List ℕ
  minutes : List ℕ
  decimals : List ℕ
  digits : ∀ d ∈ degrees ++ minutes, d < 10
  decimals_digits : ∀ d ∈ decimals, d < 10
  degrees_length : degrees.length = degreeDigits
  minutes_length : minutes.length = 2
  decimals_length : decimals.length = 4

namespace CoordinateText
variable {degreeDigits : ℕ} (t : CoordinateText degreeDigits)

def text : List UInt8 :=
  (t.degrees ++ t.minutes).map digitChar ++ ascii '.' :: t.decimals.map digitChar

def wholeDegrees : ℕ := ofDigits 10 t.degrees

/-- The minutes, in units of the last decimal. -/
def units : ℕ := ofDigits 10 t.minutes * 10 ^ 4 + ofDigits 10 t.decimals

def inMinutes : ℚ := t.units / 10 ^ 4

/-- What `RxField::value` makes of the text. -/
def value : ℚ := t.wholeDegrees * 100 + t.inMinutes

theorem wholeDegrees_lt : t.wholeDegrees < 10 ^ degreeDigits := by
  have hlt := ofDigits_lt t.degrees fun d hd => t.digits d (List.mem_append_left _ hd)
  rwa [t.degrees_length] at hlt

theorem units_lt : t.units < 10 ^ 6 := by
  have hminutes := ofDigits_lt t.minutes fun d hd => t.digits d (List.mem_append_right _ hd)
  have hdecimals := ofDigits_lt t.decimals t.decimals_digits
  rw [t.minutes_length] at hminutes
  rw [t.decimals_length] at hdecimals
  unfold units
  omega

theorem inMinutes_bounds : 0 ≤ t.inMinutes ∧ t.inMinutes < 100 := by
  have hlt : (t.units : ℚ) < 10 ^ 6 := by exact_mod_cast t.units_lt
  unfold inMinutes
  constructor
  · positivity
  · linarith

theorem whole_ne_nil : t.degrees ++ t.minutes ≠ [] := by
  intro h
  have hlength := congrArg List.length h
  rw [List.length_append, t.minutes_length, List.length_nil] at hlength
  omega

theorem whole_value :
    ofDigits 10 (t.degrees ++ t.minutes) = t.wholeDegrees * 100 + ofDigits 10 t.minutes := by
  rw [ofDigits_append, t.minutes_length]
  rfl

theorem digits_value :
    (ofDigits 10 (t.degrees ++ t.minutes) : ℚ) + ofDigits 10 t.decimals / 10 ^ 4 = t.value := by
  rw [t.whole_value]
  unfold value inMinutes units
  push_cast
  ring

/-- The text is read as its value. -/
theorem read : doubleValue t.text = .ok (some t.value) := by
  have hread := fromCharsDecimal_digits t.whole_ne_nil t.digits t.decimals_digits
  rw [t.decimals_length, t.digits_value] at hread
  exact doubleValue_of_ok hread

/-- The value is written as the text. -/
theorem written : formatFixed 4 (degreeDigits + 7) t.value = t.text := by
  have hne : t.decimals ≠ [] := by
    intro h
    have hlength := t.decimals_length
    rw [h, List.length_nil] at hlength
    omega
  have hwidth : (t.degrees ++ t.minutes).length + (4 + 1) = degreeDigits + 7 := by
    rw [List.length_append, t.degrees_length, t.minutes_length]
  have hwritten := formatFixed_digits t.whole_ne_nil hne t.digits t.decimals_digits
  rw [t.decimals_length, hwidth, t.digits_value] at hwritten
  exact hwritten

end CoordinateText

/-! ## Through decimal degrees -/

/-- Minutes that are sixty or more are a degree and the rest. -/
theorem minutes_carried {degrees : ℕ} {minutes : ℚ} (h0 : 0 ≤ minutes) (h100 : minutes < 100) {x : ℚ}
    (habs : |x| = degrees + minutes / 60) :
    minutes < 60 ∧ ⌊|x|⌋ = degrees ∧ minutesOf x = minutes ∨
      60 ≤ minutes ∧ ⌊|x|⌋ = (degrees + 1 : ℕ) ∧ minutesOf x = minutes - 60 := by
  by_cases h60 : minutes < 60
  · have hfloor : ⌊|x|⌋ = degrees := by
      rw [Int.floor_eq_iff, habs, Int.cast_natCast]
      constructor <;> linarith
    refine Or.inl ⟨h60, hfloor, ?_⟩
    rw [minutesOf, Int.fract, hfloor, habs, Int.cast_natCast]
    ring
  · have hfloor : ⌊|x|⌋ = (degrees + 1 : ℕ) := by
      rw [Int.floor_eq_iff, habs]
      push_cast
      constructor <;> linarith
    refine Or.inr ⟨not_lt.mp h60, hfloor, ?_⟩
    rw [minutesOf, Int.fract, hfloor, habs]
    push_cast
    ring

section
variable {degreeDigits : ℕ} (hdigits : degreeDigits ≤ 3) (t : CoordinateText degreeDigits)
include hdigits

theorem CoordinateText.inInt : InInt t.wholeDegrees ∧ InInt (t.wholeDegrees + 1 : ℕ) := by
  have hlt := t.wholeDegrees_lt
  have hle : 10 ^ degreeDigits ≤ 10 ^ 3 := Nat.pow_le_pow_right (by omega) hdigits
  exact ⟨inInt_natCast (by omega), inInt_natCast (by omega)⟩

theorem toDecimal_value {positive negative : UInt8}
    (hpositive : ¬ (positive = South ∨ positive = West))
    (hnegative : negative = South ∨ negative = West) (south : Bool) :
    toDecimal t.value (if south then negative else positive) =
      some (if south then -(t.wholeDegrees + t.inMinutes / 60)
        else t.wholeDegrees + t.inMinutes / 60) := by
  obtain ⟨h0, h100⟩ := t.inMinutes_bounds
  rw [CoordinateText.value, toDecimal_eq (t.inInt hdigits).1 h0 h100]
  cases south with
  | false => simp only [Bool.false_eq_true, if_false, if_neg hpositive]
  | true => simp only [if_true, if_pos hnegative]

omit hdigits in
/-- A degree more and sixty minutes less are not written as the same text. -/
theorem carried_text_ne :
    formatFixed 4 (degreeDigits + 7) ((t.wholeDegrees + 1 : ℕ) * 100 + (t.inMinutes - 60)) ≠ t.text := by
  intro hsame
  have h0 := t.inMinutes_bounds.1
  have hpositive : (0 : ℚ) ≤ (t.wholeDegrees + 1 : ℕ) * 100 + (t.inMinutes - 60) := by
    push_cast
    linarith [(Nat.cast_nonneg t.wholeDegrees : (0 : ℚ) ≤ t.wholeDegrees)]
  have hscaled : ((t.wholeDegrees + 1 : ℕ) * 100 + (t.inMinutes - 60)) * 10 ^ 4 =
      ((t.wholeDegrees * 10 ^ 6 + 400000 + t.units : ℕ) : ℚ) := by
    unfold CoordinateText.inMinutes
    push_cast
    ring
  have hread := doubleValue_of_ok (fromCharsDecimal_formatFixed (by omega : 0 < 4) (degreeDigits + 7)
    hpositive)
  rw [hscaled, roundHalfEven_natCast, hsame, t.read] at hread
  have hvalue := Option.some.inj (Except.ok.inj hread)
  unfold CoordinateText.value CoordinateText.inMinutes at hvalue
  push_cast at hvalue
  linarith

/-- A value read, with a letter, and written again. -/
theorem relayed_iff {positive negative : UInt8} (hne : positive ≠ negative)
    (hpositive : ¬ (positive = South ∨ positive = West))
    (hnegative : negative = South ∨ negative = West) (south : Bool) :
    (∃ x value' dir', toDecimal t.value (if south then negative else positive) = some x ∧
        fromDecimal positive negative x = some (value', dir') ∧
        formatFixed 4 (degreeDigits + 7) value' = t.text ∧
        dir' = if south then negative else positive) ↔
      t.inMinutes < 60 ∧ (south = true → t.value ≠ 0) := by
  obtain ⟨h0, h100⟩ := t.inMinutes_bounds
  obtain ⟨hint, hint'⟩ := t.inInt hdigits
  have hdegrees : (0 : ℚ) ≤ t.wholeDegrees := Nat.cast_nonneg _
  have hsum : 0 ≤ (t.wholeDegrees : ℚ) + t.inMinutes / 60 := by positivity
  have hdecimal := toDecimal_value hdigits t hpositive hnegative south
  generalize hx : (if south then -((t.wholeDegrees : ℚ) + t.inMinutes / 60)
    else t.wholeDegrees + t.inMinutes / 60) = x at hdecimal
  have habs : |x| = t.wholeDegrees + t.inMinutes / 60 := by
    rw [← hx]
    cases south with
    | false => rw [if_neg Bool.false_ne_true, abs_of_nonneg hsum]
    | true => rw [if_pos rfl, abs_neg, abs_of_nonneg hsum]
  -- the sign is lost with the value
  have hsign : (if 0 ≤ x then positive else negative) = (if south then negative else positive) ↔
      (south = true → t.value ≠ 0) := by
    have hvalue : t.value = t.wholeDegrees * 100 + t.inMinutes := rfl
    cases south with
    | false =>
      have hx0 : 0 ≤ x := by
        rw [← hx, if_neg Bool.false_ne_true]
        exact hsum
      rw [if_pos hx0, if_neg Bool.false_ne_true]
      exact ⟨fun _ h => absurd h Bool.false_ne_true, fun _ => rfl⟩
    | true =>
      rw [if_pos rfl] at hx
      rw [if_pos (rfl : true = true)]
      by_cases hzero : t.value = 0
      · have hx0 : 0 ≤ x := by linarith
        rw [if_pos hx0]
        exact ⟨fun h => absurd h hne, fun h => absurd hzero (h rfl)⟩
      · have hpos : 0 < t.value := lt_of_le_of_ne (by rw [hvalue]; positivity) (Ne.symm hzero)
        have hx0 : ¬ 0 ≤ x := by
          intro hnonneg
          linarith
        rw [if_neg hx0]
        exact ⟨fun _ _ => hzero, fun _ => rfl⟩
  rw [hdecimal]
  obtain ⟨h60, hfloor, hminutes⟩ | ⟨h60, hfloor, hminutes⟩ := minutes_carried h0 h100 habs
  · have hback := fromDecimal_eq positive negative hfloor hint
    rw [hminutes] at hback
    constructor
    · rintro ⟨x', value', dir', hx', hfrom, -, hdir⟩
      rw [← Option.some.inj hx', hback, Option.some.injEq, Prod.mk.injEq] at hfrom
      exact ⟨h60, hsign.mp (hfrom.2.trans hdir)⟩
    · rintro ⟨-, hzero⟩
      exact ⟨x, _, _, rfl, hback, t.written, hsign.mpr hzero⟩
  · have hback := fromDecimal_eq positive negative hfloor hint'
    rw [hminutes] at hback
    constructor
    · rintro ⟨x', value', dir', hx', hfrom, htext, -⟩
      rw [← Option.some.inj hx', hback, Option.some.injEq, Prod.mk.injEq] at hfrom
      rw [← hfrom.1] at htext
      exact absurd htext (carried_text_ne t)
    · rintro ⟨hless, -⟩
      exact absurd hless (not_lt.mpr h60)

end

end Avionicpp.Nmea0183
