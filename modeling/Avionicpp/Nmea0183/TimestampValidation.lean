import Avionicpp.Nmea0183.Utilities

/-! # Which dates and times `get_timestamp` takes

The members of a payload are integers that may not be a date and a number that may not be a time.
`get_timestamp` judges the date after it was stored in the calendar types, which are narrower, and the
time not at all. A second past the fifty-ninth is a leap second or none; either way the code goes on into
the next minute.
-/
namespace Avionicpp.Nmea0183
open Foundations
set_option autoImplicit false

/-- The time point of a date and a time of day in UTC, to the tick. -/
def IsMoment {c : Clock} (leaps : LeapSeconds) (date : Date) (hh mm : ℕ) (ss : ℚ) (tp : TimePoint c) :
    Prop :=
  leaps.HasTime date.days hh mm ss ∧ tp.1 = leaps.utcTicks c date.days hh mm ss

/-- The timestamp of a payload is the time point it says, and there is none if it says none. -/
structure Judged {c : Clock} (leaps : LeapSeconds) (cast : ClockCast c) (p : TimeFields) : Prop where
  accepts : ∀ date hh mm ss, Encodes p date hh mm ss →
    ∃ tp, IsMoment leaps date hh mm ss tp ∧ getTimestamp cast p = .value tp
  rejects : (¬ ∃ date hh mm ss, Encodes p date hh mm ss) → getTimestamp cast p = .nullopt

/-- The clocks count the midnight before a moment, and the moment itself, without the leap seconds
and with them. -/
structure InRange (c : Clock) (leaps : LeapSeconds) (date : Date) (hh mm : ℕ) (ss : ℚ) : Prop where
  midnight : c.Fits (date.days * c.ticksPerDay)
  sys : c.Fits (date.days * c.ticksPerDay + ticksOfDay c hh mm ss)
  utc : c.Fits (leaps.utcTicks c date.days hh mm ss)

/-- The hours fit an `int`; and where the stored date is one of the calendar, no part of it was cut
off, the time is one of a day, short of a leap second, and all is in range. -/
def Confined (c : Clock) (leaps : LeapSeconds) (p : TimeFields) : Prop :=
  ∀ nmeaTime year month day, p.utcTime = some nmeaTime →
    fullDate p.dateFields = some (year, month, day) →
    InInt (truncate (nmeaTime / 10000)) ∧
      ∀ date, storedDate year month day = date → date.Ok →
        (year = date.year ∧ month = date.month ∧ day = date.day) ∧
        ∃ hh mm : ℕ, ∃ ss : ℚ, nmeaTime = hh * 10000 + mm * 100 + ss ∧
          (hh ≤ 23 ∧ mm ≤ 59 ∧ 0 ≤ ss ∧ ss < 60) ∧ InRange c leaps date hh mm ss

theorem Outcome.ofOption_ne_nullopt {α : Type} (o : Option α) : Outcome.ofOption o ≠ .nullopt := by
  cases o <;> simp [Outcome.ofOption]

/-! ## Ticks -/

section
variable {c : Clock} {leaps : LeapSeconds} {hh mm : ℕ} {ss : ℚ}

theorem utcTicks_eq (c : Clock) (leaps : LeapSeconds) (day : ℤ) (hh mm : ℕ) (ss : ℚ) :
    leaps.utcTicks c day hh mm ss =
      day * c.ticksPerDay + ticksOfDay c hh mm ss + leaps.inserted day * c.rate := by
  have hsplit : ((86400 * day + leaps.inserted day + (hh * 3600 + mm * 60 + ss)) * c.rate : ℚ) =
      ((day * c.ticksPerDay + leaps.inserted day * c.rate : ℤ) : ℚ) +
        (hh * 3600 + mm * 60 + ss) * c.rate := by
    rw [Clock.ticksPerDay]
    push_cast
    ring
  rw [LeapSeconds.utcTicks, hsplit, Int.floor_intCast_add, ticksOfDay]
  omega

theorem ticksOfDay_nonneg (c : Clock) (hh mm : ℕ) (h0 : 0 ≤ ss) : 0 ≤ ticksOfDay c hh mm ss :=
  Int.floor_nonneg.mpr (by positivity)

/-- A time of day short of a leap second lies in the day. -/
theorem ticksOfDay_lt (c : Clock) (hhh : hh ≤ 23) (hmm : mm ≤ 59) (hss : ss < 60) :
    ticksOfDay c hh mm ss < c.ticksPerDay := by
  have hhh' : (hh : ℚ) ≤ 23 := by exact_mod_cast hhh
  have hmm' : (mm : ℚ) ≤ 59 := by exact_mod_cast hmm
  have hrate : (0 : ℚ) < c.rate := by exact_mod_cast c.rate_pos
  rw [ticksOfDay, Int.floor_lt, Clock.ticksPerDay]
  push_cast
  exact mul_lt_mul_of_pos_right (by linarith) hrate

/-- A leap second is counted into the next day. -/
theorem ticksOfDay_leap (c : Clock) (h60 : 60 ≤ ss) (hss : ss < 61) :
    c.ticksPerDay ≤ ticksOfDay c 23 59 ss ∧ ticksOfDay c 23 59 ss < 2 * c.ticksPerDay := by
  have hrate : (0 : ℚ) < c.rate := by exact_mod_cast c.rate_pos
  constructor
  · rw [ticksOfDay, Int.le_floor, Clock.ticksPerDay]
    push_cast
    exact mul_le_mul_of_nonneg_right (by linarith) hrate.le
  · rw [ticksOfDay, Int.floor_lt, Clock.ticksPerDay]
    push_cast
    rw [← mul_assoc]
    exact mul_lt_mul_of_pos_right (by linarith) hrate

/-- A time is taken apart in one way. -/
theorem parts_unique {hh mm hh' mm' : ℕ} {ss ss' : ℚ} (hmm : mm ≤ 59) (hss : 0 ≤ ss ∧ ss < 61)
    (hmm' : mm' ≤ 59) (hss' : 0 ≤ ss' ∧ ss' < 61)
    (h : (hh * 10000 + mm * 100 + ss : ℚ) = hh' * 10000 + mm' * 100 + ss') :
    hh = hh' ∧ mm = mm' ∧ ss = ss' := by
  obtain ⟨hhours, hduration⟩ := timeDuration_eq hh mm hmm hss.1 hss.2
  obtain ⟨hhours', hduration'⟩ := timeDuration_eq hh' mm' hmm' hss'.1 hss'.2
  rw [h] at hhours hduration
  have hsame : hh = hh' := by exact_mod_cast hhours.symm.trans hhours'
  have hsum : (hh * 3600 + mm * 60 + ss : ℚ) = hh' * 3600 + mm' * 60 + ss' :=
    hduration.symm.trans hduration'
  subst hsame
  have hminutes : (mm : ℚ) = mm' := by linarith
  exact ⟨rfl, by exact_mod_cast hminutes, by linarith⟩

theorem day_of_ticks {c : Clock} {day k t : ℤ} (hlow : k * c.ticksPerDay ≤ t)
    (hhigh : t < k * c.ticksPerDay + c.ticksPerDay) : (day * c.ticksPerDay + t) / c.ticksPerDay = day + k := by
  have hrate := c.rate_pos
  have hpos : 0 < c.ticksPerDay := by
    unfold Clock.ticksPerDay
    omega
  have hrest : t / c.ticksPerDay = k := (Int.ediv_eq_iff_of_pos hpos).mpr ⟨hlow, hhigh⟩
  rw [Int.add_comm, Int.add_mul_ediv_right _ _ hpos.ne', hrest, Int.add_comm]

end

/-! ## Payloads -/

section
variable {c : Clock} {leaps : LeapSeconds} {cast : ClockCast c} {p : TimeFields}

/-- A payload that says a date and a time gets the time point it says, if and only if it is one that the
clocks count, short of a leap second. -/
theorem moment_iff (hcast : cast.CountsLeapSeconds leaps) {date : Date} {hh mm : ℕ} {ss : ℚ}
    (h : Encodes p date hh mm ss) :
    (∃ tp, IsMoment leaps date hh mm ss tp ∧ getTimestamp cast p = .value tp) ↔
      ss < 60 ∧ InRange c leaps date hh mm ss := by
  obtain ⟨h0, hss⟩ := h.seconds
  have hnonneg := ticksOfDay_nonneg c hh mm h0
  constructor
  · rintro ⟨tp, ⟨htime, hticks⟩, hvalue⟩
    obtain ⟨hmidnight, tpSys, hsys, hutc⟩ := (getTimestamp_encodes cast h tp).mp hvalue
    rw [hcast, point_eq_some, hsys] at hutc
    have hshort : ss < 60 := by
      by_contra hlong
      have h60 : 60 ≤ ss := not_lt.mp hlong
      obtain ⟨rfl, rfl, hone⟩ := htime.leap h60
      obtain ⟨hlow, hhigh⟩ := ticksOfDay_leap c h60 hss
      have hrate := c.rate_pos
      -- the code counts the leap second that comes at the end of this very second
      rw [day_of_ticks (k := 1) (by omega) (by omega), hone, Int.add_mul, Int.one_mul] at hutc
      rw [utcTicks_eq] at hticks
      omega
    have hlt := ticksOfDay_lt c h.hours h.minutes hshort
    refine ⟨hshort, hmidnight, hsys ▸ tpSys.2, hticks ▸ tp.2⟩
  · rintro ⟨hshort, hmidnight, hsys, hutc⟩
    have hlt := ticksOfDay_lt c h.hours h.minutes hshort
    obtain ⟨tp, htp⟩ : ∃ tp : TimePoint c, tp.1 = leaps.utcTicks c date.days hh mm ss :=
      ⟨⟨_, hutc⟩, rfl⟩
    obtain ⟨tpSys, htpSys⟩ : ∃ tpSys : TimePoint c,
        tpSys.1 = date.days * c.ticksPerDay + ticksOfDay c hh mm ss := ⟨⟨_, hsys⟩, rfl⟩
    refine ⟨tp, ⟨⟨h.hours, h.minutes, h0, Or.inl hshort⟩, htp⟩, ?_⟩
    rw [getTimestamp_encodes cast h]
    refine ⟨hmidnight, tpSys, htpSys, ?_⟩
    rw [hcast, point_eq_some, htp, htpSys, day_of_ticks (k := 0) (by omega) (by omega), Int.add_zero,
      utcTicks_eq]

theorem confined_of_judged (hcast : cast.CountsLeapSeconds leaps) (h : Judged leaps cast p) :
    Confined c leaps p := by
  intro nmeaTime year month day htime hdate
  have hpresent := getTimestamp_present cast htime hdate
  constructor
  · by_contra hint
    rw [if_pos hint] at hpresent
    by_cases hsome : ∃ date hh mm ss, Encodes p date hh mm ss
    · obtain ⟨date, hh, mm, ss, hencodes⟩ := hsome
      obtain ⟨tp, -, hvalue⟩ := h.accepts date hh mm ss hencodes
      rw [hpresent] at hvalue
      cases hvalue
    · have hnullopt := h.rejects hsome
      rw [hpresent] at hnullopt
      cases hnullopt
  · intro date hstored hok
    have hsome : ∃ date hh mm ss, Encodes p date hh mm ss := by
      by_contra hsome
      have hnullopt := h.rejects hsome
      rw [hpresent, hstored, if_neg (not_not.mpr hok)] at hnullopt
      split at hnullopt
      · cases hnullopt
      · exact Outcome.ofOption_ne_nullopt _ hnullopt
    obtain ⟨date', hh, mm, ss, hencodes⟩ := hsome
    obtain ⟨hshort, hrange⟩ := (moment_iff hcast hencodes).mp (h.accepts date' hh mm ss hencodes)
    have hfields := hencodes.fields
    rw [hdate, Option.some.injEq, Prod.mk.injEq, Prod.mk.injEq] at hfields
    obtain ⟨hyear, hmonth, hday⟩ := hfields
    have hsame : date' = date := by
      rw [← hstored, hyear, hmonth, hday]
      exact (storedDate_ok hencodes.date).symm
    subst hsame
    have hparts := hencodes.time
    rw [htime] at hparts
    exact ⟨⟨hyear, hmonth, hday⟩, hh, mm, ss, Option.some.inj hparts,
      ⟨hencodes.hours, hencodes.minutes, hencodes.seconds.1, hshort⟩, hrange⟩

theorem judged_of_confined (hcast : cast.CountsLeapSeconds leaps) (h : Confined c leaps p) :
    Judged leaps cast p where
  accepts date hh mm ss hencodes := by
    obtain ⟨-, hstored⟩ := h _ _ _ _ hencodes.time hencodes.fields
    obtain ⟨-, hh', mm', ss', htime, ⟨-, hminutes, hnonneg, hshort⟩, hrange⟩ :=
      hstored date (storedDate_ok hencodes.date) hencodes.date
    obtain ⟨rfl, rfl, rfl⟩ := parts_unique hencodes.minutes hencodes.seconds hminutes
      ⟨hnonneg, by linarith⟩ htime
    exact (moment_iff hcast hencodes).mpr ⟨hshort, hrange⟩
  rejects hsome := by
    by_cases habsent : p.utcTime = none ∨ fullDate p.dateFields = none
    · exact getTimestamp_absent cast habsent
    · rw [not_or] at habsent
      obtain ⟨nmeaTime, htime⟩ := Option.ne_none_iff_exists'.mp habsent.1
      obtain ⟨⟨year, month, day⟩, hdate⟩ := Option.ne_none_iff_exists'.mp habsent.2
      obtain ⟨hint, hstored⟩ := h nmeaTime year month day htime hdate
      rw [getTimestamp_present cast htime hdate, if_neg (not_not.mpr hint)]
      apply if_pos
      intro hok
      obtain ⟨⟨hyear, hmonth, hday⟩, hh, mm, ss, hparts, ⟨hhours, hminutes, hnonneg, hshort⟩, -⟩ :=
        hstored _ rfl hok
      refine hsome ⟨storedDate year month day, hh, mm, ss, ?_, ?_, hok, hhours, hminutes, hnonneg,
        by linarith⟩
      · rw [htime, hparts]
      · rw [hdate, ← hyear, ← hmonth, ← hday]

/-- **When `get_timestamp` judges a payload as it should**, with a `clock_cast` that counts the leap
seconds. -/
theorem timestamp_judged_iff (c : Clock) (leaps : LeapSeconds) (cast : ClockCast c)
    (hcast : cast.CountsLeapSeconds leaps) (p : TimeFields) :
    Judged leaps cast p ↔ Confined c leaps p :=
  ⟨confined_of_judged hcast, judged_of_confined hcast⟩

end

/-! ## Samples -/

/-- The days that have begun behind a leap second. -/
def leapDays : List ℤ :=
  [⟨1972, 7, 1⟩, ⟨1973, 1, 1⟩, ⟨1974, 1, 1⟩, ⟨1975, 1, 1⟩, ⟨1976, 1, 1⟩, ⟨1977, 1, 1⟩, ⟨1978, 1, 1⟩,
    ⟨1979, 1, 1⟩, ⟨1980, 1, 1⟩, ⟨1981, 7, 1⟩, ⟨1982, 7, 1⟩, ⟨1983, 7, 1⟩, ⟨1985, 7, 1⟩, ⟨1988, 1, 1⟩,
    ⟨1990, 1, 1⟩, ⟨1991, 1, 1⟩, ⟨1992, 7, 1⟩, ⟨1993, 7, 1⟩, ⟨1994, 7, 1⟩, ⟨1996, 1, 1⟩, ⟨1997, 7, 1⟩,
    ⟨1999, 1, 1⟩, ⟨2006, 1, 1⟩, ⟨2009, 1, 1⟩, ⟨2012, 7, 1⟩, ⟨2015, 7, 1⟩, ⟨2017, 1, 1⟩].map Date.days

def leapSeconds : LeapSeconds := .ofDays leapDays (by decide)

/-- The cast to UTC, and the one back for the time points since 2017. -/
def tableCast : ClockCast nanosecondClock where
  toUtc tpSys := nanosecondClock.point
    (tpSys.1 + leapSeconds.inserted (tpSys.1 / nanosecondClock.ticksPerDay) * nanosecondClock.rate)
  toSys tp := (leapSecondCast nanosecondClock 27).toSys tp

/-- Noon on a leap day. -/
theorem noon_judged : Judged leapSeconds tableCast ⟨some 120000, .date (some 290224)⟩ := by
  rw [timestamp_judged_iff nanosecondClock leapSeconds tableCast fun _ => rfl]
  intro nmeaTime year month day htime hdate
  obtain rfl : 120000 = nmeaTime := Option.some.inj htime
  have hfull : (2024, 2, 29) = (year, month, day) := Option.some.inj hdate
  obtain ⟨rfl, rfl, rfl⟩ := by simpa only [Prod.mk.injEq] using hfull
  refine ⟨by decide +kernel, ?_⟩
  rintro date rfl -
  refine ⟨by decide, 12, 0, 0, by norm_num, by norm_num, ?_, ?_, ?_⟩
  · decide
  · decide +kernel
  · decide +kernel

/-- The leap second at the end of 2016 is taken for the first second of 2017. -/
example :
    ∃ tp, getTimestamp tableCast ⟨some 235960, .date (some 311216)⟩ = .value tp ∧
      tp.1 = leapSeconds.utcTicks nanosecondClock (⟨2017, 1, 1⟩ : Date).days 0 0 0 ∧
      tp.1 = leapSeconds.utcTicks nanosecondClock (⟨2016, 12, 31⟩ : Date).days 23 59 60 + 10 ^ 9 := by
  refine ⟨⟨(17167 * 86400 + 27) * 10 ^ 9, by decide⟩, ?_, ?_, ?_⟩ <;> decide +kernel

/-- Twenty-five o'clock. -/
def lateTime : TimeFields := ⟨some 250000, .date (some 230324)⟩

theorem lateTime_taken :
    ∃ tp, getTimestamp tableCast lateTime = .value tp ∧
      tp.1 = ((⟨2024, 3, 24⟩ : Date).days * 86400 + 3600 + 27) * 10 ^ 9 := by
  refine ⟨⟨_, ?_⟩, ?_, rfl⟩
  · decide
  · decide +kernel

/-- It is taken for one o'clock on the next day. -/
theorem lateTime_misjudged : ¬ Judged leapSeconds tableCast lateTime := by
  intro h
  obtain ⟨tp, hvalue, -⟩ := lateTime_taken
  have hnone : ¬ ∃ date hh mm ss, Encodes lateTime date hh mm ss := by
    rintro ⟨date, hh, mm, ss, hencodes⟩
    have htime : (250000 : ℚ) = hh * 10000 + mm * 100 + ss := Option.some.inj hencodes.time
    have hhh : (hh : ℚ) ≤ 23 := by exact_mod_cast hencodes.hours
    have hmm : (mm : ℚ) ≤ 59 := by exact_mod_cast hencodes.minutes
    have hss := hencodes.seconds.2
    linarith
  rw [h.rejects hnone] at hvalue
  cases hvalue

end Avionicpp.Nmea0183
