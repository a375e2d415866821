import Avionicpp.Nmea0183.Coordinates
import Avionicpp.Nmea0183.TimestampRoundTrip

/-! # Relayed times

A client that reads the time out of a sentence and sets it in another one goes from the text to a time
point and back. The text comes out as it went in if it is a time of day in whole seconds: one beyond the
day, the hour or the minute is carried over, and hundredths come back as something else.
-/
namespace Avionicpp.Nmea0183
open Foundations
set_option autoImplicit false

/-! ## The text -/

def twoDigits (n : ℕ) : List ℕ := [n / 10, n % 10]

theorem twoDigits_lt {n : ℕ} (h : n < 100) : ∀ d ∈ twoDigits n, d < 10 := by
  intro d hd
  simp only [twoDigits, List.mem_cons, List.not_mem_nil, or_false] at hd
  omega

@[simp] theorem ofDigits_twoDigits (n : ℕ) : ofDigits 10 (twoDigits n) = n := by
  simp only [ofDigits, twoDigits, List.reverse_cons, List.reverse_nil, List.nil_append,
    List.cons_append, Nat.ofDigits_cons, Nat.ofDigits_nil]
  omega

/-- Six digits and two decimals. -/
structure TimeText where
  hours : ℕ
  minutes : ℕ
  seconds : ℕ
  hundredths : ℕ
  hours_lt : hours < 100
  minutes_lt : minutes < 100
  seconds_lt : seconds < 100
  hundredths_lt : hundredths < 100

namespace TimeText
variable (t : TimeText)

def digits : List ℕ := twoDigits t.hours ++ (twoDigits t.minutes ++ twoDigits t.seconds)

def text : List UInt8 := t.digits.map digitChar ++ ascii '.' :: (twoDigits t.hundredths).map digitChar

/-- What `RxField::value` makes of the text. -/
def value : ℚ := t.hours * 10000 + t.minutes * 100 + t.seconds + t.hundredths / 100

theorem digits_lt : ∀ d ∈ t.digits, d < 10 := by
  intro d hd
  simp only [digits, List.mem_append] at hd
  obtain hd | hd | hd := hd
  · exact twoDigits_lt t.hours_lt d hd
  · exact twoDigits_lt t.minutes_lt d hd
  · exact twoDigits_lt t.seconds_lt d hd

theorem digits_value :
    (ofDigits 10 t.digits : ℚ) + ofDigits 10 (twoDigits t.hundredths) / 10 ^ 2 = t.value := by
  have hdigits : ofDigits 10 t.digits = t.hours * 10 ^ 4 + (t.minutes * 10 ^ 2 + t.seconds) := by
    rw [digits, ofDigits_append, ofDigits_append, ofDigits_twoDigits, ofDigits_twoDigits,
      ofDigits_twoDigits]
    rfl
  rw [hdigits, ofDigits_twoDigits, value]
  push_cast
  ring

theorem digits_ne_nil : t.digits ≠ [] := List.cons_ne_nil _ _

theorem hundredths_length : (twoDigits t.hundredths).length = 2 := rfl

/-- The text is read as its value. -/
theorem read : doubleValue t.text = .ok (some t.value) := by
  have hread := fromCharsDecimal_digits t.digits_ne_nil t.digits_lt (twoDigits_lt t.hundredths_lt)
  rw [t.hundredths_length, t.digits_value] at hread
  exact doubleValue_of_ok hread

/-- The value is written as the text. -/
theorem written : formatFixed 2 9 t.value = t.text := by
  have hne : twoDigits t.hundredths ≠ [] := List.cons_ne_nil _ _
  have hwritten := formatFixed_digits t.digits_ne_nil hne t.digits_lt (twoDigits_lt t.hundredths_lt)
  rw [t.hundredths_length, t.digits_value] at hwritten
  exact hwritten

/-- A text that says a whole number has no hundredths. -/
theorem whole_of_written {n : ℕ} (h : formatFixed 2 9 n = t.text) :
    t.hundredths = 0 ∧ t.hours * 10000 + t.minutes * 100 + t.seconds = n := by
  have hread := doubleValue_of_ok
    (fromCharsDecimal_formatFixed (by omega : 0 < 2) 9 (Nat.cast_nonneg n : (0 : ℚ) ≤ n))
  have hscaled : (n : ℚ) * 10 ^ 2 = (n * 100 : ℕ) := by
    push_cast
    ring
  rw [hscaled, roundHalfEven_natCast, h, t.read] at hread
  have hvalue := Option.some.inj (Except.ok.inj hread)
  have hhundred : t.hours * 1000000 + t.minutes * 10000 + t.seconds * 100 + t.hundredths = n * 100 := by
    have hscale : t.value * 100 = ((n * 100 : ℕ) : ℚ) := by
      rw [hvalue]
      push_cast
      ring
    rw [value] at hscale
    have hsum : ((t.hours * 1000000 + t.minutes * 10000 + t.seconds * 100 + t.hundredths : ℕ) : ℚ) =
        ((n * 100 : ℕ) : ℚ) := by
      rw [← hscale]
      push_cast
      ring
    exact_mod_cast hsum
  have hlt := t.hundredths_lt
  omega

end TimeText

/-! ## Through a time point -/

theorem truncate_intCast (n : ℤ) : truncate n = n := by
  simp [truncate]

/-- A number of whole seconds is a number of them however it is taken apart. -/
theorem timeDuration_natural (n : ℕ) : ∃ k : ℤ, timeDuration n = k := by
  refine ⟨truncate ((n : ℚ) / 10000) * 3600 + truncate (fmod n 10000 / 100) * 60 +
    (n - 100 * truncate ((n : ℚ) / 100)), ?_⟩
  rw [timeDuration, fmod, fmod]
  push_cast
  ring

/-- What the code has read is the ticks of whole days and those of the duration. -/
theorem sys_of_read {c : Clock} {cast : ClockCast c} {p : TimeFields} {nmeaTime : ℚ} {date : Date}
    (htime : p.utcTime = some nmeaTime)
    (hfull : fullDate p.dateFields = some (date.year, (date.month : ℤ), (date.day : ℤ)))
    {tp : TimePoint c} (hget : getTimestamp cast p = .value tp) :
    ∃ (tpSys : TimePoint c) (days : ℤ), cast.toUtc tpSys = some tp ∧
      tpSys.1 = days * c.ticksPerDay + truncate (timeDuration nmeaTime * c.rate) := by
  rw [getTimestamp_present cast htime hfull] at hget
  split at hget
  · cases hget
  · split at hget
    · cases hget
    · obtain ⟨tpSys, hsys, hutc⟩ := Option.bind_eq_some_iff.mp (Outcome.ofOption_eq_value.mp hget)
      obtain ⟨-, -, hsum⟩ := sysTime_eq_some.mp hsys
      exact ⟨tpSys, _, hutc, hsum⟩

/-- Out of whole seconds comes a time point of whole seconds. -/
theorem whole_of_natural {c : Clock} {tpSys : TimePoint c} {days : ℤ} {n : ℕ}
    (h : tpSys.1 = days * c.ticksPerDay + truncate (timeDuration n * c.rate)) :
    (c.rate : ℤ) ∣ tpSys.1 := by
  obtain ⟨k, hk⟩ := timeDuration_natural n
  have hticks : truncate (timeDuration n * c.rate) = k * c.rate := by
    rw [hk, ← Int.cast_natCast, ← Int.cast_mul, truncate_intCast]
  rw [h, hticks, Clock.ticksPerDay]
  exact Int.dvd_add (Dvd.dvd.mul_left (Int.dvd_mul_left _ _) _) (Int.dvd_mul_left _ _)

/-- **A time that is read and set again** is sent as it came, and so is the date, if and only if it is a
time of day in whole seconds. -/
theorem time_relayed_iff {c : Clock} {cast : ClockCast c}
    (hinverse : ∀ tp tpSys, cast.toUtc tpSys = some tp → cast.toSys tp = some tpSys) (p : TimeFields)
    (date : Date) (hok : date.Ok)
    (hfull : fullDate p.dateFields = some (date.year, (date.month : ℤ), (date.day : ℤ)))
    (hdate : HoldsDate p.dateFields date) (t : TimeText) (hread : doubleValue t.text = .ok p.utcTime)
    (tp : TimePoint c) (hget : getTimestamp cast p = .value tp) :
    (∃ p', setTimestamp cast p tp = some p' ∧ formatDouble 2 9 p'.utcTime = t.text ∧
        p'.dateFields = p.dateFields) ↔
      t.hours < 24 ∧ t.minutes < 60 ∧ t.seconds < 60 ∧ t.hundredths = 0 := by
  have htime : p.utcTime = some t.value := Except.ok.inj (hread.symm.trans t.read)
  constructor
  · rintro ⟨p', hset, htext, -⟩
    obtain ⟨tpSys, days, hutc, hsum⟩ := sys_of_read htime hfull hget
    obtain ⟨-, rfl⟩ := (setTimestamp_eq_some (hinverse tp tpSys hutc)).mp hset
    -- a whole number is written, so one was read, and so the time point is one of whole seconds
    obtain ⟨n, hn⟩ := nmeaTimeOf_natural (hhMmSs c (timeOfDay tpSys))
    have hwritten : formatFixed 2 9 n = t.text := by
      rw [← hn]
      exact htext
    obtain ⟨hhundredths, hdigits⟩ := t.whole_of_written hwritten
    have hvalue : t.value = n := by
      rw [TimeText.value, hhundredths, ← hdigits]
      push_cast
      ring
    rw [hvalue] at hsum
    obtain ⟨k, hk, hticks⟩ := seconds_of_whole (whole_of_natural hsum)
    rw [hticks, nmeaTimeOf_seconds] at hn
    have hparts : k / 3600 * 10000 + k / 60 % 60 * 100 + k % 60 = n := by exact_mod_cast hn
    have hminutes := t.minutes_lt
    have hseconds := t.seconds_lt
    omega
  · rintro ⟨hhours, hminutes, hseconds, hhundredths⟩
    have hvalue : t.value = t.hours * 10000 + t.minutes * 100 + (t.seconds : ℕ) := by
      rw [TimeText.value, hhundredths, Nat.cast_zero, zero_div, add_zero]
    have hencodes : Encodes p date t.hours t.minutes (t.seconds : ℕ) := by
      refine ⟨by rw [htime, hvalue], hfull, hok, by omega, by omega, by positivity, ?_⟩
      exact_mod_cast (by omega : t.seconds < 61)
    refine ⟨p, payload_restored hinverse hencodes hseconds hdate hget, ?_, rfl⟩
    rw [htime]
    exact t.written

theorem leapSecondCast_inverse (c : Clock) (inserted : ℤ) (tp tpSys : TimePoint c)
    (h : (leapSecondCast c inserted).toUtc tpSys = some tp) :
    (leapSecondCast c inserted).toSys tp = some tpSys := by
  have hsum : tp.1 = tpSys.1 + inserted * c.rate := point_eq_some.mp h
  apply point_eq_some.mpr
  rw [hsum, Int.add_sub_cancel]

/-- Noon on a leap day, as a sentence has it. -/
def noonText : TimeText := ⟨12, 0, 0, 0, by decide, by decide, by decide, by decide⟩

theorem noon_relayed :
    ∃ p', setTimestamp (leapSecondCast nanosecondClock 27) ⟨some 120000, .date (some 290224)⟩ noonUtc =
        some p' ∧ formatDouble 2 9 p'.utcTime = noonText.text ∧
        p'.dateFields = .date (some 290224) := by
  have hvalue : noonText.value = 120000 := by norm_num [TimeText.value, noonText]
  have hread := noonText.read
  rw [hvalue] at hread
  have hdate : HoldsDate (.date (some 290224)) ⟨2024, 2, 29⟩ := ⟨by decide, by decide⟩
  have hiff := time_relayed_iff (leapSecondCast_inverse nanosecondClock 27)
    ⟨some 120000, .date (some 290224)⟩ ⟨2024, 2, 29⟩ (by decide) (by decide) hdate noonText hread
    noonUtc (by decide +kernel)
  exact hiff.mpr (by decide)

end Avionicpp.Nmea0183
