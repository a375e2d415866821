import Avionicpp.Foundations.Chrono
import Avionicpp.Foundations.Decimal
import Avionicpp.Nmea0183.Deserializer
import Avionicpp.Nmea0183.Serializer
import Avionicpp.Nmea0183.Utilities

/-! # Coordinates (`nmea0183/utilities.hpp`)

A coordinate is sent as degrees and minutes, `degrees * 100 + minutes`, with a letter for the
hemisphere. The setters and getters are templates over the payload and look at its coordinate members
only. The minutes are rounded by the formatter, which knows nothing of degrees: just below a whole
degree the text has sixty minutes, and is still read back as what was meant.
-/
namespace Avionicpp.Nmea0183
open Foundations
set_option autoImplicit false

namespace DirectionIndicator

def East : UInt8 := ascii 'E'
def North : UInt8 := ascii 'N'
def South : UInt8 := ascii 'S'
def West : UInt8 := ascii 'W'

end DirectionIndicator

open DirectionIndicator

structure CoordinateFields where
  latitude : Option ℚ
  latitudeDirection : Option UInt8
  longitude : Option ℚ
  longitudeDirection : Option UInt8
  deriving DecidableEq

/-- `detail::to_decimal`; a value whose degrees are no `int` has no defined result. -/
def toDecimal (nmeaVal : ℚ) (dir : UInt8) : Option ℚ :=
  let degrees := truncate (nmeaVal / 100)
  if ¬ InInt degrees then none
  else
    let minutes := fmod nmeaVal 100
    let decimal := degrees + minutes / 60
    some (if dir = South ∨ dir = West then -decimal else decimal)

/-- What `detail::from_decimal_lat` and `detail::from_decimal_lon` have in common. -/
def fromDecimal (positive negative : UInt8) (decimal : ℚ) : Option (ℚ × UInt8) :=
  let dir := if 0 ≤ decimal then positive else negative
  let absVal := |decimal|
  let degrees := truncate absVal
  if ¬ InInt degrees then none
  else
    let minutes := (absVal - degrees) * 60
    some (degrees * 100 + minutes, dir)

def fromDecimalLat (decimal : ℚ) : Option (ℚ × UInt8) := fromDecimal North South decimal

def fromDecimalLon (decimal : ℚ) : Option (ℚ × UInt8) := fromDecimal East West decimal

/-- `get_latitude_deg` -/
def getLatitudeDeg (p : CoordinateFields) : Outcome ℚ :=
  match p.latitude, p.latitudeDirection with
  | some value, some dir => .ofOption (toDecimal value dir)
  | _, _ => .nullopt

/-- `set_latitude_deg`: the payload afterwards. -/
def setLatitudeDeg (p : CoordinateFields) (latitude : ℚ) : Option CoordinateFields := do
  let (val, dir) ← fromDecimalLat latitude
  some { p with latitude := some val, latitudeDirection := some dir }

/-- `get_longitude_deg` -/
def getLongitudeDeg (p : CoordinateFields) : Outcome ℚ :=
  match p.longitude, p.longitudeDirection with
  | some value, some dir => .ofOption (toDecimal value dir)
  | _, _ => .nullopt

/-- `set_longitude_deg`: the payload afterwards. -/
def setLongitudeDeg (p : CoordinateFields) (longitude : ℚ) : Option CoordinateFields := do
  let (val, dir) ← fromDecimalLon longitude
  some { p with longitude := some val, longitudeDirection := some dir }

/-! ## Their text -/

/-- `formatter<OptionalWrapper>::format` of a `double`. -/
def formatDouble (precision width : ℕ) : Option ℚ → List UInt8
  | none => []
  | some value => formatFixed precision width value

/-- `RxField::value` of a `double`. -/
def doubleValue (token : List UInt8) : Except NMEAError (Option ℚ) :=
  match token with
  | [] => .ok none
  | c :: rest =>
    let (ec, val) := fromCharsDecimal (c :: rest)
    if ec ≠ .ok then .error .parseError else .ok (some val)

/-- Every latitude and every longitude of the payloads has this precision and width. -/
theorem coordinate_kinds : ∀ p ∈ Payloads.all, ∀ f ∈ p.fields,
    (f.name = "latitude" → f.kind = .float .double 4 9) ∧
      (f.name = "longitude" → f.kind = .float .double 4 10) := by
  decide

theorem doubleValue_of_ok {text : List UInt8} {v : ℚ} (h : fromCharsDecimal text = (.ok, v)) :
    doubleValue text = .ok (some v) := by
  cases text with
  | nil => simp [fromCharsDecimal, scanDigits] at h
  | cons c rest => simp [doubleValue, h]

/-! ## What is asked -/

/-- A coordinate in decimal degrees. -/
def Degrees (limit : ℕ) : Type := {x : ℚ // -(limit : ℚ) ≤ x ∧ x ≤ limit}

abbrev Latitude : Type := Degrees 90

abbrev Longitude : Type := Degrees 180

/-- The minutes of a coordinate, without its whole degrees. -/
def minutesOf (x : ℚ) : ℚ := Int.fract |x| * 60

/-- Digits of degrees, `mm.mmmm` below sixty, and no more degrees than there are. -/
def IsCoordinate (degreeDigits limit : ℕ) (text : List UInt8) : Prop :=
  ∃ degrees minutes decimals : List ℕ,
    (∀ d ∈ degrees ++ minutes, d < 10) ∧ (∀ d ∈ decimals, d < 10) ∧
    degrees.length = degreeDigits ∧ minutes.length = 2 ∧ decimals.length = 4 ∧
    text = (degrees ++ minutes).map digitChar ++ ascii '.' :: decimals.map digitChar ∧
    ofDigits 10 degrees ≤ limit ∧
    (ofDigits 10 minutes : ℚ) + ofDigits 10 decimals / 10 ^ 4 < 60

/-! ## Degrees and minutes -/

theorem inInt_natCast {n : ℕ} (h : n < 2 ^ 31) : InInt n := by
  unfold InInt
  omega

theorem toDecimal_eq {degrees : ℕ} (hdegrees : InInt degrees) {minutes : ℚ} (h0 : 0 ≤ minutes)
    (h100 : minutes < 100) (dir : UInt8) :
    toDecimal (degrees * 100 + minutes) dir =
      some (if dir = South ∨ dir = West then -(degrees + minutes / 60) else degrees + minutes / 60) := by
  have hmod := fmod_eq degrees h0 h100
  have hdiv := truncate_div degrees h0 h100
  simp only [toDecimal, hdiv, hdegrees, not_true_eq_false, if_false, Int.cast_natCast, hmod]

theorem fromDecimal_eq (positive negative : UInt8) {x : ℚ} {degrees : ℕ}
    (hfloor : ⌊|x|⌋ = degrees) (hdegrees : InInt degrees) :
    fromDecimal positive negative x =
      some (degrees * 100 + minutesOf x, if 0 ≤ x then positive else negative) := by
  have htruncate : truncate |x| = degrees := by
    rw [truncate_of_nonneg (abs_nonneg x), hfloor]
  have hfract : |x| - degrees = Int.fract |x| := by
    rw [Int.fract, hfloor]
    push_cast
    rfl
  simp only [fromDecimal, htruncate, hdegrees, not_true_eq_false, if_false, Int.cast_natCast, hfract,
    minutesOf]

theorem minutesOf_bounds (x : ℚ) : 0 ≤ minutesOf x ∧ minutesOf x < 60 := by
  have h0 := Int.fract_nonneg |x|
  have h1 := Int.fract_lt_one |x|
  unfold minutesOf
  constructor <;> linarith

theorem Degrees.floor {limit : ℕ} (x : Degrees limit) :
    ∃ degrees : ℕ, ⌊|x.1|⌋ = degrees ∧ degrees ≤ limit := by
  have habs : |x.1| ≤ limit := abs_le.mpr x.2
  obtain ⟨degrees, hfloor⟩ := Int.eq_ofNat_of_zero_le (Int.floor_nonneg.mpr (abs_nonneg x.1))
  refine ⟨degrees, hfloor, ?_⟩
  have hle := Int.floor_le_floor habs
  rw [hfloor, Int.floor_natCast] at hle
  omega

/-- **What rounding to four decimals makes of degrees and minutes**: the degrees stay, and the minutes
reach sixty if they are in the last half of a decimal below. -/
theorem rounded_minutes (degrees : ℕ) {minutes : ℚ} (h0 : 0 ≤ minutes) (h60 : minutes < 60) :
    ∃ k : ℕ, roundHalfEven ((degrees * 100 + minutes) * 10 ^ 4) = (degrees * 10 ^ 6 + k : ℕ) ∧
      k ≤ 600000 ∧ |(k : ℚ) / 10 ^ 4 - minutes| ≤ 0.00005 ∧ (k < 600000 ↔ minutes < 59.99995) := by
  obtain ⟨hlow, hhigh⟩ := roundHalfEven_near ((degrees * 100 + minutes) * 10 ^ 4)
  have hfloor : ((degrees * 10 ^ 6 : ℕ) : ℤ) ≤ roundHalfEven ((degrees * 100 + minutes) * 10 ^ 4) := by
    apply le_roundHalfEven
    push_cast
    linarith
  obtain ⟨k, hk⟩ := Int.le.dest hfloor
  have hround : roundHalfEven ((degrees * 100 + minutes) * 10 ^ 4) = (degrees * 10 ^ 6 + k : ℕ) := by
    rw [← hk]
    push_cast
    ring
  have hcarry := roundHalfEven_lt_iff (x := (degrees * 100 + minutes) * 10 ^ 4)
    (N := (degrees * 10 ^ 6 + 600000 : ℕ)) (by push_cast; omega)
  rw [hround] at hlow hhigh hcarry
  push_cast at hlow hhigh hcarry
  have hle : k ≤ 600000 := by
    have hlt : (k : ℚ) < 600001 := by linarith
    have hlt' : k < 600001 := by exact_mod_cast hlt
    omega
  refine ⟨k, hround, hle, ?_, ?_⟩
  · rw [abs_le]
    constructor <;> linarith
  · constructor
    · intro h
      have hless := hcarry.mp (by omega)
      linarith
    · intro h
      have hless := hcarry.mpr (by linarith)
      omega

/-! ## The form of the text -/

section
variable {degreeDigits limit degrees k : ℕ} {minutes : ℚ}
  (hround : roundHalfEven ((degrees * 100 + minutes) * 10 ^ 4) = (degrees * 10 ^ 6 + k : ℕ))
  (h0 : 0 ≤ minutes)
include hround h0

/-- Sixty minutes are a degree more: they are no minutes of a coordinate. -/
theorem ne_full_of_isCoordinate
    (h : IsCoordinate degreeDigits limit
      (formatFixed 4 (degreeDigits + 7) (degrees * 100 + minutes))) : k ≠ 600000 := by
  obtain ⟨ds, ms, fs, hlow, hlow', hds, hms, hfs, htext, -, hminutes⟩ := h
  intro hfull
  have hvalue : (0 : ℚ) ≤ degrees * 100 + minutes := by positivity
  have hread := fromCharsDecimal_formatFixed (by omega : 0 < 4) (degreeDigits + 7) hvalue
  have hne : ds ++ ms ≠ [] := by
    intro h
    have hnil := congrArg List.length h
    rw [List.length_append, hms, List.length_nil] at hnil
    omega
  rw [htext, fromCharsDecimal_digits hne hlow hlow', ofDigits_append, hms, hfs, hround, hfull,
    Prod.mk.injEq] at hread
  have hequal := hread.2
  push_cast at hequal
  -- the degrees of the text lie strictly between two of the coordinate
  have hF : (0 : ℚ) ≤ ofDigits 10 fs / 10 ^ 4 := by positivity
  have hM : (0 : ℚ) ≤ ofDigits 10 ms := by positivity
  have habove : (degrees : ℚ) < ofDigits 10 ds := by linarith
  have hbelow : (ofDigits 10 ds : ℚ) < degrees + 1 := by linarith
  have habove' : degrees < ofDigits 10 ds := by exact_mod_cast habove
  have hbelow' : ofDigits 10 ds < degrees + 1 := by exact_mod_cast hbelow
  omega

theorem isCoordinate_of_lt (hlimit : limit < 10 ^ degreeDigits) (hdegrees : degrees ≤ limit)
    (h : k < 600000) :
    IsCoordinate degreeDigits limit
      (formatFixed 4 (degreeDigits + 7) (degrees * 100 + minutes)) := by
  have hvalue : (0 : ℚ) ≤ degrees * 100 + minutes := by positivity
  have hwhole : (degrees * 10 ^ 6 + k) / 10 ^ 4 = degrees * 10 ^ 2 + k / 10 ^ 4 := by omega
  have hdecimals : (degrees * 10 ^ 6 + k) % 10 ^ 4 = k % 10 ^ 4 := by omega
  have hwidth : degreeDigits + 7 - (4 + 1) = degreeDigits + 2 := by omega
  have htext := formatFixed_eq (by omega : 0 < 4) (degreeDigits + 7) hvalue hround
  rw [hwidth, hwhole, hdecimals] at htext
  have hwhole10 := paddedDigits_lt (by omega : 2 ≤ 10) (degreeDigits + 2)
    (degrees * 10 ^ 2 + k / 10 ^ 4 : ℕ)
  obtain ⟨ds, ms, hsplit, hds, hms, hdegree, hminute⟩ :=
    paddedDigits_split (v := 2) (by omega) (hdegrees.trans_lt hlimit) (by omega : k / 10 ^ 4 < 10 ^ 2)
  have hfs := paddedDigits_length (by omega : 0 < 4) (Nat.mod_lt k (by omega : 10 ^ 4 > 0))
  rw [hsplit] at htext hwhole10
  refine ⟨ds, ms, paddedDigits 10 4 (k % 10 ^ 4 : ℕ), hwhole10,
    paddedDigits_lt (by omega) _ _, hds, hms, hfs, htext, ?_, ?_⟩
  · rwa [hdegree]
  · have hsum : ((10 ^ 4 * (k / 10 ^ 4) + k % 10 ^ 4 : ℕ) : ℚ) = k := by rw [Nat.div_add_mod]
    have hk : (k : ℚ) < 600000 := by exact_mod_cast h
    rw [hminute, ofDigits_paddedDigits]
    push_cast at hsum ⊢
    linarith

end

theorem isCoordinate_formatFixed_iff {degreeDigits limit degrees : ℕ}
    (hlimit : limit < 10 ^ degreeDigits) (hdegrees : degrees ≤ limit) {minutes : ℚ}
    (h0 : 0 ≤ minutes) (h60 : minutes < 60) :
    IsCoordinate degreeDigits limit (formatFixed 4 (degreeDigits + 7) (degrees * 100 + minutes)) ↔
      minutes < 59.99995 := by
  obtain ⟨k, hround, hle, -, hcarry⟩ := rounded_minutes degrees h0 h60
  rw [← hcarry]
  constructor
  · intro h
    exact lt_of_le_of_ne hle (ne_full_of_isCoordinate hround h0 h)
  · exact isCoordinate_of_lt hround h0 hlimit hdegrees

/-! ## The setters -/

theorem Degrees.fromDecimal {limit : ℕ} (hlimit : limit < 2 ^ 31) (x : Degrees limit)
    (positive negative : UInt8) :
    ∃ degrees : ℕ, degrees ≤ limit ∧ |x.1| = degrees + minutesOf x.1 / 60 ∧
      Nmea0183.fromDecimal positive negative x.1 =
        some (degrees * 100 + minutesOf x.1, if 0 ≤ x.1 then positive else negative) := by
  obtain ⟨degrees, hfloor, hdegrees⟩ := x.floor
  have hint := inInt_natCast (hdegrees.trans_lt hlimit)
  refine ⟨degrees, hdegrees, ?_, fromDecimal_eq positive negative hfloor hint⟩
  have hsplit := Int.floor_add_fract |x.1|
  rw [hfloor, Int.cast_natCast] at hsplit
  unfold minutesOf
  linarith

section
variable (p : CoordinateFields)

theorem setLatitudeDeg_eq (x : Latitude) :
    ∃ degrees : ℕ, degrees ≤ 90 ∧ |x.1| = degrees + minutesOf x.1 / 60 ∧
      setLatitudeDeg p x.1 = some { p with
        latitude := some (degrees * 100 + minutesOf x.1)
        latitudeDirection := some (if 0 ≤ x.1 then North else South) } := by
  obtain ⟨degrees, hdegrees, habs, hval⟩ := x.fromDecimal (by omega) North South
  refine ⟨degrees, hdegrees, habs, ?_⟩
  rw [setLatitudeDeg, fromDecimalLat, hval]
  rfl

theorem setLongitudeDeg_eq (x : Longitude) :
    ∃ degrees : ℕ, degrees ≤ 180 ∧ |x.1| = degrees + minutesOf x.1 / 60 ∧
      setLongitudeDeg p x.1 = some { p with
        longitude := some (degrees * 100 + minutesOf x.1)
        longitudeDirection := some (if 0 ≤ x.1 then East else West) } := by
  obtain ⟨degrees, hdegrees, habs, hval⟩ := x.fromDecimal (by omega) East West
  refine ⟨degrees, hdegrees, habs, ?_⟩
  rw [setLongitudeDeg, fromDecimalLon, hval]
  rfl

end

/-- **The text of a coordinate keeps its form exactly while its minutes stay below sixty when they are
rounded.** -/
theorem coordinates_form_iff (lat : Latitude) (lon : Longitude) (p : CoordinateFields) :
    ((∃ p', setLatitudeDeg p lat.1 = some p' ∧ IsCoordinate 2 90 (formatDouble 4 9 p'.latitude)) ↔
        minutesOf lat.1 < 59.99995) ∧
      ((∃ p', setLongitudeDeg p lon.1 = some p' ∧ IsCoordinate 3 180 (formatDouble 4 10 p'.longitude)) ↔
        minutesOf lon.1 < 59.99995) := by
  constructor
  · obtain ⟨degrees, hdegrees, -, hset⟩ := setLatitudeDeg_eq p lat
    obtain ⟨h0, h60⟩ := minutesOf_bounds lat.1
    rw [hset, ← isCoordinate_formatFixed_iff (by omega : 90 < 10 ^ 2) hdegrees h0 h60]
    simp only [Option.some.injEq, exists_eq_left', formatDouble]
  · obtain ⟨degrees, hdegrees, -, hset⟩ := setLongitudeDeg_eq p lon
    obtain ⟨h0, h60⟩ := minutesOf_bounds lon.1
    rw [hset, ← isCoordinate_formatFixed_iff (by omega : 180 < 10 ^ 3) hdegrees h0 h60]
    simp only [Option.some.injEq, exists_eq_left', formatDouble]

/-- A double that is no whole number of degrees, but rounds to one. -/
def sampleLatitude : Latitude := ⟨46 - 1 / 2 ^ 21, by norm_num, by norm_num⟩

/-- It is sent with sixty minutes. -/
theorem sampleLatitude_carries :
    ∃ p', setLatitudeDeg ⟨none, none, none, none⟩ sampleLatitude.1 = some p' ∧
      formatDouble 4 9 p'.latitude = asciiText "4560.0000" ∧
      ¬ IsCoordinate 2 90 (formatDouble 4 9 p'.latitude) := by
  refine ⟨⟨some (45 * 100 + (60 - 60 / 2 ^ 21)), some North, none, none⟩, by decide +kernel,
    by decide +kernel, ?_⟩
  have hform := isCoordinate_formatFixed_iff (by omega : 90 < 10 ^ 2) (by omega : 45 ≤ 90)
    (by norm_num : (0 : ℚ) ≤ 60 - 60 / 2 ^ 21) (by norm_num)
  push_cast at hform
  rw [formatDouble, hform]
  norm_num

/-! ## The way back -/

/-- The letter is the sign. -/
theorem toDecimal_signed {positive negative : UInt8} (hpositive : ¬ (positive = South ∨ positive = West))
    (hnegative : negative = South ∨ negative = West) {degrees : ℕ} (hdegrees : InInt degrees)
    {minutes : ℚ} (h0 : 0 ≤ minutes) (h100 : minutes < 100) (x : ℚ) :
    toDecimal (degrees * 100 + minutes) (if 0 ≤ x then positive else negative) =
      some (if 0 ≤ x then degrees + minutes / 60 else -(degrees + minutes / 60)) := by
  rw [toDecimal_eq hdegrees h0 h100]
  by_cases hx : 0 ≤ x
  · rw [if_pos hx, if_neg hpositive, if_pos hx]
  · rw [if_neg hx, if_pos hnegative, if_neg hx]

section
variable (positive negative : UInt8) (hpositive : ¬ (positive = South ∨ positive = West))
  (hnegative : negative = South ∨ negative = West) {degrees : ℕ} (hdegrees : InInt degrees) {x : ℚ}
  (habs : |x| = degrees + minutesOf x / 60)
include hpositive hnegative hdegrees habs

theorem toDecimal_returns :
    toDecimal (degrees * 100 + minutesOf x) (if 0 ≤ x then positive else negative) = some x := by
  obtain ⟨h0, h60⟩ := minutesOf_bounds x
  rw [toDecimal_signed hpositive hnegative hdegrees h0 (by linarith), ← habs]
  by_cases hx : 0 ≤ x
  · rw [if_pos hx, abs_of_nonneg hx]
  · rw [if_neg hx, abs_of_neg (not_le.mp hx), neg_neg]

/-- Over the text, half of the last decimal of a minute is lost at most. -/
theorem toDecimal_text (width : ℕ) :
    ∃ value y, doubleValue (formatDouble 4 width (some (degrees * 100 + minutesOf x))) =
        .ok (some value) ∧
      toDecimal value (if 0 ≤ x then positive else negative) = some y ∧
      |y - x| ≤ 0.00005 / 60 := by
  obtain ⟨h0, h60⟩ := minutesOf_bounds x
  obtain ⟨k, hround, hle, hnear, -⟩ := rounded_minutes degrees h0 h60
  have hvalue : (0 : ℚ) ≤ degrees * 100 + minutesOf x := by positivity
  have hread := fromCharsDecimal_formatFixed (by omega : 0 < 4) width hvalue
  have hsplit : ((degrees * 10 ^ 6 + k : ℕ) : ℚ) / 10 ^ 4 = degrees * 100 + k / 10 ^ 4 := by
    push_cast
    ring
  have hk : (k : ℚ) ≤ 600000 := by exact_mod_cast hle
  have hmeant : (0 : ℚ) ≤ k / 10 ^ 4 := by positivity
  have hmeant' : (k : ℚ) / 10 ^ 4 < 100 := by linarith
  rw [hround, Int.cast_natCast, hsplit] at hread
  refine ⟨degrees * 100 + k / 10 ^ 4, _, doubleValue_of_ok hread,
    toDecimal_signed hpositive hnegative hdegrees hmeant hmeant' x, ?_⟩
  rw [abs_le] at hnear ⊢
  by_cases hx : 0 ≤ x
  · rw [abs_of_nonneg hx] at habs
    rw [if_pos hx]
    constructor <;> linarith
  · rw [abs_of_neg (not_le.mp hx)] at habs
    rw [if_neg hx]
    constructor <;> linarith

end

/-- **A coordinate that was set is read back as it was**, with its sign as the letter, and half a last
decimal of a minute off at most if it went over the text. -/
theorem coordinates_return (lat : Latitude) (lon : Longitude) (p : CoordinateFields) :
    (∃ p', setLatitudeDeg p lat.1 = some p' ∧ getLatitudeDeg p' = .value lat.1 ∧
        p'.latitudeDirection = some (if lat.1 < 0 then South else North) ∧
        ∃ value y, doubleValue (formatDouble 4 9 p'.latitude) = .ok value ∧
          getLatitudeDeg { p' with latitude := value } = .value y ∧
          |y - lat.1| ≤ 0.00005 / 60) ∧
      ∃ p', setLongitudeDeg p lon.1 = some p' ∧ getLongitudeDeg p' = .value lon.1 ∧
        p'.longitudeDirection = some (if lon.1 < 0 then West else East) ∧
        ∃ value y, doubleValue (formatDouble 4 10 p'.longitude) = .ok value ∧
          getLongitudeDeg { p' with longitude := value } = .value y ∧
          |y - lon.1| ≤ 0.00005 / 60 := by
  constructor
  · obtain ⟨degrees, hdegrees, habs, hset⟩ := setLatitudeDeg_eq p lat
    have hint := inInt_natCast (hdegrees.trans_lt (by omega))
    have hread := toDecimal_returns North South (by decide) (by decide) hint habs
    obtain ⟨value, y, htext, hvalue, hnear⟩ := toDecimal_text North South (by decide)
      (by decide) hint habs 9
    refine ⟨_, hset, ?_, ?_, some value, y, htext, ?_, hnear⟩
    · simp only [getLatitudeDeg, hread, Outcome.ofOption]
    · simp only [← not_lt, ite_not]
    · simp only [getLatitudeDeg, hvalue, Outcome.ofOption]
  · obtain ⟨degrees, hdegrees, habs, hset⟩ := setLongitudeDeg_eq p lon
    have hint := inInt_natCast (hdegrees.trans_lt (by omega))
    have hread := toDecimal_returns East West (by decide) (by decide) hint habs
    obtain ⟨value, y, htext, hvalue, hnear⟩ := toDecimal_text East West (by decide)
      (by decide) hint habs 10
    refine ⟨_, hset, ?_, ?_, some value, y, htext, ?_, hnear⟩
    · simp only [getLongitudeDeg, hread, Outcome.ofOption]
    · simp only [← not_lt, ite_not]
    · simp only [getLongitudeDeg, hvalue, Outcome.ofOption]

end Avionicpp.Nmea0183
