import Avionicpp.Foundations.Chrono
import Mathlib.Tactic.Positivity

/-! # Timestamps (`nmea0183/utilities.hpp`)

`get_timestamp` and `set_timestamp` are templates over the payload and look at its time and date
members only.
-/
namespace Avionicpp.Nmea0183
open Foundations
set_option autoImplicit false

/-- The date members of a payload, as the templates tell them apart: `p.date`, or `p.day`, `p.month`
and `p.year`. -/
inductive DateFields where
  | date (ddmmyy : Option Int32)
  | dayMonthYear (day month year : Option Int32)
  | absent
  deriving DecidableEq

structure TimeFields where
  utcTime : Option ℚ
  dateFields : DateFields
  deriving DecidableEq

/-- A value, `std::nullopt`, or no defined behaviour. -/
inductive Outcome (α : Type) where
  | value (a : α)
  | nullopt
  | undefined
  deriving DecidableEq

def Outcome.ofOption {α : Type} : Option α → Outcome α
  | some a => .value a
  | none => .undefined

/-- `year_val`, `month_val` and `day_val` -/
def dateValues : DateFields → Option (ℤ × ℕ × ℕ)
  | .date (some ddmmyy) =>
    some (ddmmyy.toInt.tmod 100 + 2000, toUnsigned ((ddmmyy.toInt.tdiv 100).tmod 100),
      toUnsigned (ddmmyy.toInt.tdiv 10000))
  | .dayMonthYear (some day) (some month) (some year) =>
    some (year.toInt, toUnsigned month.toInt, toUnsigned day.toInt)
  | _ => none

/-- The sum of hours, minutes and seconds, in seconds. -/
def timeDuration (nmeaTime : ℚ) : ℚ :=
  truncate (nmeaTime / 10000) * 3600 + truncate (fmod nmeaTime 10000 / 100) * 60 + fmod nmeaTime 100

/-- `get_timestamp` -/
def getTimestamp {c : Clock} (cast : ClockCast c) (p : TimeFields) : Outcome (TimePoint c) :=
  match p.utcTime, dateValues p.dateFields with
  | some nmeaTime, some (yearVal, monthVal, dayVal) =>
    let ymd := yearMonthDay yearVal monthVal dayVal
    -- the cast of the hours to `int`
    if ¬ InInt (truncate (nmeaTime / 10000)) then .undefined
    else if ¬ ymd.Ok then .nullopt
    else .ofOption do
      let tpSys ← c.sysTime ymd.days (truncate (timeDuration nmeaTime * c.rate))
      cast.toUtc tpSys
  | _, _ => .nullopt

/-- The number of subseconds is added as it is. -/
def nmeaTimeOf (time : HhMmSs) : ℚ :=
  time.hours * 10000 + time.minutes * 100 + (time.seconds + time.subseconds)

/-- The date members of `set_timestamp`, which are `unsigned` before they are stored in an `int`. -/
def setDate (ymd : Date) : DateFields → DateFields
  | .date _ => .date (some (Int32.ofInt (ymd.day * 10000 + ymd.month * 100 + ymd.year.tmod 100)))
  | .dayMonthYear .. =>
    .dayMonthYear (some (Int32.ofInt ymd.day)) (some (Int32.ofInt ymd.month))
      (some (Int32.ofInt ymd.year))
  | .absent => .absent

/-- `set_timestamp`: the payload afterwards. -/
def setTimestamp {c : Clock} (cast : ClockCast c) (p : TimeFields) (tp : TimePoint c) :
    Option TimeFields := do
  let sysTp ← cast.toSys tp
  let dp := sysTp.1 / c.ticksPerDay
  let date := Date.ofDays dp
  let ymd := yearMonthDay date.year date.month date.day
  let midnight ← c.point (dp * c.ticksPerDay)
  some ⟨some (nmeaTimeOf (hhMmSs c (sysTp.1 - midnight.1))), setDate ymd p.dateFields⟩

/-! ## What the members say -/

/-- The year, the month and the day as full integers. -/
def fullDate : DateFields → Option (ℤ × ℤ × ℤ)
  | .date (some ddmmyy) =>
    some (ddmmyy.toInt.tmod 100 + 2000, (ddmmyy.toInt.tdiv 100).tmod 100, ddmmyy.toInt.tdiv 10000)
  | .dayMonthYear (some day) (some month) (some year) => some (year.toInt, month.toInt, day.toInt)
  | _ => none

/-- The date that is left of three integers after the conversions. -/
def storedDate (year month day : ℤ) : Date := yearMonthDay year (toUnsigned month) (toUnsigned day)

theorem storedDate_ok {date : Date} (h : date.Ok) :
    storedDate date.year date.month date.day = date := by
  obtain ⟨hmonth, hday⟩ := h.parts_lt
  rw [storedDate, toUnsigned_natCast (by omega), toUnsigned_natCast (by omega), yearMonthDay_ok h]

theorem dateValues_eq (dateFields : DateFields) :
    dateValues dateFields =
      (fullDate dateFields).map fun (year, month, day) => (year, toUnsigned month, toUnsigned day) := by
  cases dateFields with
  | date ddmmyy => cases ddmmyy <;> rfl
  | dayMonthYear day month year => cases day <;> cases month <;> cases year <;> rfl
  | absent => rfl

theorem getTimestamp_absent {c : Clock} (cast : ClockCast c) {p : TimeFields}
    (h : p.utcTime = none ∨ fullDate p.dateFields = none) : getTimestamp cast p = .nullopt := by
  have hvalues := dateValues_eq p.dateFields
  unfold getTimestamp
  obtain htime | hdate := h
  · rw [htime]
  · rw [hvalues, hdate]
    cases p.utcTime <;> rfl

theorem getTimestamp_present {c : Clock} (cast : ClockCast c) {p : TimeFields} {nmeaTime : ℚ}
    {year month day : ℤ} (htime : p.utcTime = some nmeaTime)
    (hdate : fullDate p.dateFields = some (year, month, day)) :
    getTimestamp cast p =
      if ¬ InInt (truncate (nmeaTime / 10000)) then .undefined
      else if ¬ (storedDate year month day).Ok then .nullopt
      else .ofOption ((c.sysTime (storedDate year month day).days
        (truncate (timeDuration nmeaTime * c.rate))).bind cast.toUtc) := by
  have hvalues := dateValues_eq p.dateFields
  unfold getTimestamp
  rw [htime, hvalues, hdate]
  rfl

/-- A time of `hhmmss` is taken apart as it was put together. -/
theorem timeDuration_eq (hh mm : ℕ) {ss : ℚ} (hmm : mm ≤ 59) (h0 : 0 ≤ ss) (hss : ss < 61) :
    truncate ((hh * 10000 + mm * 100 + ss) / 10000) = hh ∧
      timeDuration (hh * 10000 + mm * 100 + ss) = hh * 3600 + mm * 60 + ss := by
  have hmm' : (mm : ℚ) ≤ 59 := by exact_mod_cast hmm
  have hlow : (0 : ℚ) ≤ mm * 100 + ss := by positivity
  have hlow' : (mm : ℚ) * 100 + ss < 10000 := by linarith
  have hss' : ss < 100 := by linarith
  have hhours := truncate_div hh hlow hlow'
  have hminutes : fmod (hh * 10000 + (mm * 100 + ss)) 10000 = mm * 100 + ss := fmod_eq hh hlow hlow'
  have hseconds : fmod (hh * 10000 + (mm * 100 + ss)) 100 = ss := by
    have h := fmod_eq (hh * 100 + mm) h0 hss'
    rwa [show ((hh * 100 + mm : ℕ) : ℚ) * 100 + ss = hh * 10000 + (mm * 100 + ss) by
      push_cast; ring] at h
  rw [add_assoc]
  refine ⟨hhours, ?_⟩
  rw [timeDuration, hhours, hminutes, hseconds, truncate_div mm h0 hss']
  push_cast
  ring

/-- All members are present and give this date and this time of day. -/
structure Encodes (p : TimeFields) (date : Date) (hh mm : ℕ) (ss : ℚ) : Prop where
  time : p.utcTime = some (hh * 10000 + mm * 100 + ss)
  fields : fullDate p.dateFields = some (date.year, (date.month : ℤ), (date.day : ℤ))
  date : date.Ok
  hours : hh ≤ 23
  minutes : mm ≤ 59
  seconds : 0 ≤ ss ∧ ss < 61

/-- The ticks of a time of day. -/
def ticksOfDay (c : Clock) (hh mm : ℕ) (ss : ℚ) : ℤ := ⌊(hh * 3600 + mm * 60 + ss) * c.rate⌋

theorem Outcome.ofOption_eq_value {α : Type} {o : Option α} {a : α} :
    Outcome.ofOption o = .value a ↔ o = some a := by
  cases o <;> simp [Outcome.ofOption]

theorem ticksOfDay_fits (c : Clock) {hh mm : ℕ} {ss : ℚ} (hhh : hh ≤ 23) (hmm : mm ≤ 59)
    (h0 : 0 ≤ ss) (hss : ss < 61) : c.Fits (ticksOfDay c hh mm ss) := by
  have hhh' : (hh : ℚ) ≤ 23 := by exact_mod_cast hhh
  have hmm' : (mm : ℚ) ≤ 59 := by exact_mod_cast hmm
  have hrate : (0 : ℚ) < c.rate := by exact_mod_cast c.rate_pos
  have hday : (hh : ℚ) * 3600 + mm * 60 + ss ≤ 86401 := by linarith
  have hupper := mul_le_mul_of_nonneg_right hday hrate.le
  constructor
  · exact c.min_nonpos.trans (Int.floor_nonneg.mpr (by positivity))
  · apply le_trans _ c.day_le_max
    have hfloor := Int.floor_le_floor hupper
    have hcast : ((86401 : ℚ) * c.rate) = ((86401 * c.rate : ℤ) : ℚ) := by push_cast; rfl
    rw [hcast, Int.floor_intCast] at hfloor
    exact hfloor

/-- What the code makes of a payload that says a date and a time. -/
theorem getTimestamp_encodes {c : Clock} (cast : ClockCast c) {p : TimeFields} {date : Date}
    {hh mm : ℕ} {ss : ℚ} (h : Encodes p date hh mm ss) (tp : TimePoint c) :
    getTimestamp cast p = .value tp ↔
      c.Fits (date.days * c.ticksPerDay) ∧ ∃ tpSys : TimePoint c,
        tpSys.1 = date.days * c.ticksPerDay + ticksOfDay c hh mm ss ∧ cast.toUtc tpSys = some tp := by
  obtain ⟨h0, hss⟩ := h.seconds
  obtain ⟨hhours, hduration⟩ := timeDuration_eq hh mm h.minutes h0 hss
  have hdate : storedDate date.year date.month date.day = date := storedDate_ok h.date
  have hint : InInt (hh : ℤ) := by
    have := h.hours
    constructor <;> omega
  have hnonneg : (0 : ℚ) ≤ (hh * 3600 + mm * 60 + ss) * c.rate := by positivity
  rw [getTimestamp_present cast h.time h.fields, hdate, hhours, hduration,
    if_neg (not_not.mpr hint), if_neg (not_not.mpr h.date), Outcome.ofOption_eq_value,
    truncate_of_nonneg hnonneg, Option.bind_eq_some_iff]
  constructor
  · rintro ⟨tpSys, hsys, hutc⟩
    obtain ⟨hfits, -, hval⟩ := sysTime_eq_some.mp hsys
    exact ⟨hfits, tpSys, hval, hutc⟩
  · rintro ⟨hfits, tpSys, hval, hutc⟩
    exact ⟨tpSys, sysTime_eq_some.mpr
      ⟨hfits, ticksOfDay_fits c h.hours h.minutes h0 hss, hval⟩, hutc⟩

end Avionicpp.Nmea0183
