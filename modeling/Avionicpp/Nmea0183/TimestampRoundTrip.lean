import Avionicpp.Nmea0183.Utilities

/-! # A time point through a payload

`set_timestamp` takes a time point apart and `get_timestamp` puts it together again. They are inverse
on whole seconds only: the fraction of a second is stored as its count of subseconds, not as a
fraction.
-/
namespace Avionicpp.Nmea0183
open Foundations
set_option autoImplicit false

/-- The dates that the members of a payload have room for. -/
def HoldsDate : DateFields → Date → Prop
  | .date _, date => 2000 ≤ date.year ∧ date.year ≤ 2099
  | .dayMonthYear .., date => -32767 ≤ date.year ∧ date.year ≤ 32767
  | .absent, _ => False

def dayOf {c : Clock} (tpSys : TimePoint c) : ℤ := tpSys.1 / c.ticksPerDay

def timeOfDay {c : Clock} (tpSys : TimePoint c) : ℤ := tpSys.1 % c.ticksPerDay

/-- The time point comes back from the payload, whose time is the time of day in hours, minutes and
seconds with their fraction. -/
def Preserved {c : Clock} (cast : ClockCast c) (p : TimeFields) (tp tpSys : TimePoint c) : Prop :=
  ∃ p', setTimestamp cast p tp = some p' ∧ getTimestamp cast p' = .value tp ∧
    ∃ (hh mm : ℕ) (ss : ℚ), hh < 24 ∧ mm < 60 ∧ 0 ≤ ss ∧ ss < 60 ∧
      hh * 3600 + mm * 60 + ss = timeOfDay tpSys / c.rate ∧
      p'.utcTime = some (hh * 10000 + mm * 100 + ss) ∧ hh * 10000 + mm * 100 + ss < 240000

theorem ticksPerDay_pos (c : Clock) : 0 < c.ticksPerDay := by
  have hrate := c.rate_pos
  unfold Clock.ticksPerDay
  omega

theorem dayOf_add {c : Clock} (tpSys : TimePoint c) :
    dayOf tpSys * c.ticksPerDay + timeOfDay tpSys = tpSys.1 := Int.ediv_mul_add_emod _ _

theorem rate_dvd_timeOfDay {c : Clock} (tpSys : TimePoint c) :
    (c.rate : ℤ) ∣ timeOfDay tpSys ↔ (c.rate : ℤ) ∣ tpSys.1 := by
  have hday : (c.rate : ℤ) ∣ dayOf tpSys * c.ticksPerDay :=
    Dvd.dvd.mul_left (Dvd.intro_left 86400 rfl) _
  rw [← dayOf_add tpSys, Int.dvd_add_right hday]

/-! ## Setting -/

theorem setTimestamp_eq_some {c : Clock} {cast : ClockCast c} {p p' : TimeFields}
    {tp tpSys : TimePoint c} (hsys : cast.toSys tp = some tpSys) :
    setTimestamp cast p tp = some p' ↔
      c.Fits (dayOf tpSys * c.ticksPerDay) ∧
        p' = ⟨some (nmeaTimeOf (hhMmSs c (timeOfDay tpSys))),
          setDate (yearMonthDay (Date.ofDays (dayOf tpSys)).year (Date.ofDays (dayOf tpSys)).month
            (Date.ofDays (dayOf tpSys)).day) p.dateFields⟩ := by
  have htime : tpSys.1 - dayOf tpSys * c.ticksPerDay = timeOfDay tpSys := by
    rw [← dayOf_add tpSys]
    omega
  simp only [setTimestamp, hsys, Option.bind_eq_bind, Option.bind_some, Option.bind_eq_some_iff,
    point_eq_some, Option.some.injEq]
  rw [← dayOf]
  constructor
  · rintro ⟨midnight, hmidnight, hp⟩
    rw [hmidnight, htime] at hp
    rw [← hmidnight]
    exact ⟨midnight.2, hp.symm⟩
  · rintro ⟨hfits, rfl⟩
    exact ⟨⟨_, hfits⟩, rfl, by rw [htime]⟩

theorem holdsDate_ok {date : Date} (hvalid : date.Valid) {dateFields : DateFields}
    (hdate : HoldsDate dateFields date) : date.Ok := by
  cases dateFields with
  | date ddmmyy =>
    obtain ⟨hlow, hhigh⟩ := hdate
    exact ⟨by omega, by omega, hvalid⟩
  | dayMonthYear day month year => exact ⟨hdate.1, hdate.2, hvalid⟩
  | absent => exact hdate.elim

theorem tmod_century {year : ℤ} (hlow : 2000 ≤ year) (hhigh : year ≤ 2099) :
    year.tmod 100 = year - 2000 := by
  rw [Int.tmod_eq_emod_of_nonneg (by omega)]
  omega

/-- The date members say the date that they have room for. -/
theorem fullDate_setDate {date : Date} (hvalid : date.Valid) (dateFields : DateFields)
    (hdate : HoldsDate dateFields date) :
    fullDate (setDate date dateFields) = some (date.year, (date.month : ℤ), (date.day : ℤ)) := by
  obtain ⟨-, hmonth, -, hday⟩ := hvalid
  have hday' := hday.trans (monthLengths_le date.year (date.month - 1))
  cases dateFields with
  | date ddmmyy =>
    obtain ⟨hlow, hhigh⟩ := hdate
    have hstored : (Int32.ofInt (date.day * 10000 + date.month * 100 + date.year.tmod 100)).toInt =
        date.day * 10000 + date.month * 100 + (date.year - 2000) := by
      rw [tmod_century hlow hhigh, Int32.toInt_ofInt_of_le (by omega) (by omega)]
    have hnonneg : 0 ≤ (date.day * 10000 + date.month * 100 + (date.year - 2000) : ℤ) := by omega
    simp only [setDate, fullDate, hstored, Option.some.injEq, Prod.mk.injEq]
    rw [Int.tmod_eq_emod_of_nonneg hnonneg, Int.tdiv_eq_ediv_of_nonneg hnonneg,
      Int.tdiv_eq_ediv_of_nonneg hnonneg, Int.tmod_eq_emod_of_nonneg (by omega)]
    omega
  | dayMonthYear day month year =>
    obtain ⟨hlow, hhigh⟩ := hdate
    simp only [setDate, fullDate]
    rw [Int32.toInt_ofInt_of_le (by omega) (by omega), Int32.toInt_ofInt_of_le (by omega) (by omega),
      Int32.toInt_ofInt_of_le (by omega) (by omega)]
  | absent => exact hdate.elim

/-- What the date members said before they say again. -/
theorem setDate_fullDate {date : Date} (hvalid : date.Valid) {dateFields : DateFields}
    (hfull : fullDate dateFields = some (date.year, (date.month : ℤ), (date.day : ℤ)))
    (hdate : HoldsDate dateFields date) : setDate date dateFields = dateFields := by
  obtain ⟨-, -, hday, -⟩ := hvalid
  cases dateFields with
  | date ddmmyy =>
    cases ddmmyy with
    | none => cases hfull
    | some ddmmyy =>
      obtain ⟨hlow, hhigh⟩ := hdate
      simp only [fullDate, Option.some.injEq, Prod.mk.injEq] at hfull
      obtain ⟨hyear, hmonth, hday'⟩ := hfull
      have hnonneg : 0 ≤ ddmmyy.toInt := by
        by_contra hneg
        have h := Int.tdiv_nonneg (show 0 ≤ -ddmmyy.toInt by omega) (show (0 : ℤ) ≤ 10000 by omega)
        rw [Int.neg_tdiv] at h
        omega
      rw [Int.tmod_eq_emod_of_nonneg hnonneg] at hyear
      rw [Int.tdiv_eq_ediv_of_nonneg hnonneg, Int.tmod_eq_emod_of_nonneg (by omega)] at hmonth
      rw [Int.tdiv_eq_ediv_of_nonneg hnonneg] at hday'
      have hsum : date.day * 10000 + date.month * 100 + date.year.tmod 100 = ddmmyy.toInt := by
        rw [tmod_century hlow hhigh]
        omega
      rw [setDate, hsum, Int32.ofInt_toInt]
  | dayMonthYear day month year =>
    cases day <;> cases month <;> cases year <;>
      simp only [fullDate, reduceCtorEq, Option.some.injEq, Prod.mk.injEq] at hfull
    obtain ⟨hyear, hmonth, hday'⟩ := hfull
    rw [setDate, ← hyear, ← hmonth, ← hday', Int32.ofInt_toInt, Int32.ofInt_toInt, Int32.ofInt_toInt]
  | absent => exact hdate.elim

/-- The whole seconds of a day, written as a time. -/
theorem nmeaTimeOf_seconds (c : Clock) (k : ℕ) :
    nmeaTimeOf (hhMmSs c (k * c.rate : ℕ)) =
      ((k / 3600 : ℕ) : ℚ) * 10000 + ((k / 60 % 60 : ℕ) : ℚ) * 100 + ((k % 60 : ℕ) : ℚ) := by
  have hdiv : k * c.rate / c.rate = k := Nat.mul_div_cancel k c.rate_pos
  have hmod : k * c.rate % c.rate = 0 := Nat.mul_mod_left k c.rate
  simp only [nmeaTimeOf, hhMmSs, Int.natAbs_natCast, hdiv, hmod, Nat.zero_mul, Nat.zero_div,
    Nat.cast_zero, add_zero]

theorem nmeaTimeOf_natural (time : HhMmSs) : ∃ n : ℕ, nmeaTimeOf time = n := by
  refine ⟨time.hours * 10000 + time.minutes * 100 + (time.seconds + time.subseconds), ?_⟩
  rw [nmeaTimeOf]
  push_cast
  rfl

theorem seconds_sum (k : ℕ) :
    ((k / 3600 : ℕ) : ℚ) * 3600 + ((k / 60 % 60 : ℕ) : ℚ) * 60 + ((k % 60 : ℕ) : ℚ) = k := by
  exact_mod_cast (by omega : k / 3600 * 3600 + k / 60 % 60 * 60 + k % 60 = k)

theorem ticksOfDay_seconds (c : Clock) (k : ℕ) :
    ticksOfDay c (k / 3600) (k / 60 % 60) (k % 60 : ℕ) = (k * c.rate : ℕ) := by
  rw [ticksOfDay, seconds_sum, ← Nat.cast_mul, Int.floor_natCast]

theorem seconds_of_whole {c : Clock} {tpSys : TimePoint c} (hwhole : (c.rate : ℤ) ∣ tpSys.1) :
    ∃ k : ℕ, k < 86400 ∧ timeOfDay tpSys = (k * c.rate : ℕ) := by
  obtain ⟨q, hq⟩ := (rate_dvd_timeOfDay tpSys).mpr hwhole
  have hrate : (0 : ℤ) < c.rate := by exact_mod_cast c.rate_pos
  have hnonneg : 0 ≤ timeOfDay tpSys := Int.emod_nonneg _ (ticksPerDay_pos c).ne'
  have hlt : timeOfDay tpSys < c.ticksPerDay := Int.emod_lt_of_pos _ (ticksPerDay_pos c)
  rw [hq] at hnonneg hlt
  have hq0 : 0 ≤ q := nonneg_of_mul_nonneg_right hnonneg hrate
  rw [Clock.ticksPerDay, mul_comm 86400] at hlt
  have hday : q < 86400 := lt_of_mul_lt_mul_left hlt hrate.le
  refine ⟨q.toNat, by omega, ?_⟩
  rw [hq, Nat.cast_mul, Int.toNat_of_nonneg hq0, mul_comm]

/-! ## The round trip -/

section
variable {c : Clock} {cast : ClockCast c} {p : TimeFields} {tp tpSys : TimePoint c}
  (hsys : cast.toSys tp = some tpSys)
include hsys

/-- The stored time is a whole number, so a fraction of a second is lost in it. -/
theorem whole_of_preserved (h : Preserved cast p tp tpSys) :
    (c.rate : ℤ) ∣ tpSys.1 ∧ c.Fits (dayOf tpSys * c.ticksPerDay) := by
  obtain ⟨p', hset, -, hh, mm, ss, -, -, -, -, hsum, htime, -⟩ := h
  obtain ⟨hfits, rfl⟩ := (setTimestamp_eq_some hsys).mp hset
  refine ⟨?_, hfits⟩
  obtain ⟨n, hn⟩ := nmeaTimeOf_natural (hhMmSs c (timeOfDay tpSys))
  have hstored := Option.some.inj htime
  rw [hn] at hstored
  have hss : ss = ((n - hh * 10000 - mm * 100 : ℤ) : ℚ) := by
    push_cast
    linarith
  have hrate : (c.rate : ℚ) ≠ 0 := by exact_mod_cast c.rate_pos.ne'
  rw [hss, eq_div_iff hrate] at hsum
  have hticks : (hh * 3600 + mm * 60 + (n - hh * 10000 - mm * 100)) * (c.rate : ℤ) =
      timeOfDay tpSys := by exact_mod_cast hsum
  rw [← rate_dvd_timeOfDay]
  exact Dvd.intro_left _ hticks

theorem preserved_of_whole (hutc : cast.toUtc tpSys = some tp)
    (hdate : HoldsDate p.dateFields (Date.ofDays (dayOf tpSys))) (hwhole : (c.rate : ℤ) ∣ tpSys.1)
    (hfits : c.Fits (dayOf tpSys * c.ticksPerDay)) : Preserved cast p tp tpSys := by
  have hvalid := ofDays_valid (dayOf tpSys)
  have hok := holdsDate_ok hvalid hdate
  obtain ⟨k, hday, hk⟩ := seconds_of_whole hwhole
  have hencodes : Encodes ⟨some (nmeaTimeOf (hhMmSs c (timeOfDay tpSys))),
      setDate (Date.ofDays (dayOf tpSys)) p.dateFields⟩ (Date.ofDays (dayOf tpSys)) (k / 3600)
      (k / 60 % 60) (k % 60 : ℕ) := by
    refine ⟨?_, fullDate_setDate hvalid p.dateFields hdate, hok, by omega, by omega, ?_, ?_⟩
    · rw [hk, nmeaTimeOf_seconds]
    · positivity
    · exact_mod_cast (by omega : k % 60 < 61)
  have hset := (setTimestamp_eq_some (p := p) hsys).mpr ⟨hfits, rfl⟩
  rw [yearMonthDay_ok hok] at hset
  refine ⟨_, hset, ?_, k / 3600, k / 60 % 60, (k % 60 : ℕ), by omega, by omega, ?_, ?_, ?_, ?_, ?_⟩
  · rw [getTimestamp_encodes cast hencodes, days_ofDays]
    refine ⟨hfits, tpSys, ?_, hutc⟩
    rw [ticksOfDay_seconds, ← hk, dayOf_add]
  · positivity
  · exact_mod_cast (by omega : k % 60 < 60)
  · have hrate : (c.rate : ℚ) ≠ 0 := by exact_mod_cast c.rate_pos.ne'
    rw [seconds_sum, hk, Int.cast_natCast, Nat.cast_mul, mul_div_cancel_right₀ _ hrate]
  · exact hencodes.time
  · exact_mod_cast (by omega : k / 3600 * 10000 + k / 60 % 60 * 100 + k % 60 < 240000)

end

/-- **When a time point comes back from a payload.** -/
theorem timestamp_preserved_iff (c : Clock) (cast : ClockCast c) (p : TimeFields)
    (tp tpSys : TimePoint c) (hsys : cast.toSys tp = some tpSys) (hutc : cast.toUtc tpSys = some tp)
    (hdate : HoldsDate p.dateFields (Date.ofDays (dayOf tpSys))) :
    Preserved cast p tp tpSys ↔
      (c.rate : ℤ) ∣ tpSys.1 ∧ c.Fits (dayOf tpSys * c.ticksPerDay) :=
  ⟨whole_of_preserved hsys, fun h => preserved_of_whole hsys hutc hdate h.1 h.2⟩

/-- Noon on a leap day, in the two clocks, after 27 leap seconds. -/
def noonSys : TimePoint nanosecondClock :=
  ⟨((⟨2024, 2, 29⟩ : Date).days * 86400 + 43200) * 10 ^ 9, by decide⟩

def noonUtc : TimePoint nanosecondClock := ⟨noonSys.1 + 27 * 10 ^ 9, by decide⟩

theorem noon_preserved :
    Preserved (leapSecondCast nanosecondClock 27) ⟨none, .date none⟩ noonUtc noonSys ↔
      (nanosecondClock.rate : ℤ) ∣ noonSys.1 ∧
        nanosecondClock.Fits (dayOf noonSys * nanosecondClock.ticksPerDay) :=
  timestamp_preserved_iff nanosecondClock (leapSecondCast nanosecondClock 27) ⟨none, .date none⟩
    noonUtc noonSys (by decide) (by decide)
    (show 2000 ≤ (Date.ofDays (dayOf noonSys)).year ∧ (Date.ofDays (dayOf noonSys)).year ≤ 2099 by
      decide)

/-- Half a second later. -/
def pastNoonSys : TimePoint nanosecondClock := ⟨noonSys.1 + 5 * 10 ^ 8, by decide⟩

def pastNoonUtc : TimePoint nanosecondClock := ⟨noonUtc.1 + 5 * 10 ^ 8, by decide⟩

/-- The half second is stored as five hundred million seconds. -/
theorem pastNoon_lost :
    (leapSecondCast nanosecondClock 27).toSys pastNoonUtc = some pastNoonSys ∧
      (leapSecondCast nanosecondClock 27).toUtc pastNoonSys = some pastNoonUtc ∧
      HoldsDate (.date none) (Date.ofDays (dayOf pastNoonSys)) ∧
      setTimestamp (leapSecondCast nanosecondClock 27) ⟨none, .date none⟩ pastNoonUtc =
        some ⟨some (120000 + 5 * 10 ^ 8), .date (some 290224)⟩ ∧
      ¬ Preserved (leapSecondCast nanosecondClock 27) ⟨none, .date none⟩ pastNoonUtc
        pastNoonSys := by
  have hsys : (leapSecondCast nanosecondClock 27).toSys pastNoonUtc = some pastNoonSys := by decide
  refine ⟨hsys, by decide, ?_, by decide +kernel, ?_⟩
  · show 2000 ≤ (Date.ofDays (dayOf pastNoonSys)).year ∧ (Date.ofDays (dayOf pastNoonSys)).year ≤ 2099
    decide
  · intro h
    exact absurd (whole_of_preserved hsys h).1 (by decide)

/-- The other way round, a payload that says a date and a whole second is restored by its
timestamp. -/
theorem payload_restored {c : Clock} {cast : ClockCast c}
    (hinverse : ∀ tp tpSys, cast.toUtc tpSys = some tp → cast.toSys tp = some tpSys)
    {p : TimeFields} {date : Date} {hh mm ss : ℕ} (hencodes : Encodes p date hh mm ss) (hss : ss < 60)
    (hdate : HoldsDate p.dateFields date) {tp : TimePoint c} (hget : getTimestamp cast p = .value tp) :
    setTimestamp cast p tp = some p := by
  obtain ⟨hfits, tpSys, hval, hutc⟩ := (getTimestamp_encodes cast hencodes tp).mp hget
  have hhours := hencodes.hours
  have hminutes := hencodes.minutes
  -- the time of day is a number of seconds
  obtain ⟨k, hk⟩ : ∃ k, k = hh * 3600 + mm * 60 + ss := ⟨_, rfl⟩
  have hparts : k / 3600 = hh ∧ k / 60 % 60 = mm ∧ k % 60 = ss := by omega
  have hticks := ticksOfDay_seconds c k
  have htime := nmeaTimeOf_seconds c k
  rw [hparts.1, hparts.2.1, hparts.2.2] at hticks htime
  rw [hticks] at hval
  -- so day and time of day are those of the payload
  have hrange : ((k * c.rate : ℕ) : ℤ) < c.ticksPerDay := by
    have hlt := Nat.mul_lt_mul_of_pos_right (show k < 86400 by omega) c.rate_pos
    unfold Clock.ticksPerDay
    exact_mod_cast hlt
  have hday : dayOf tpSys = date.days := by
    rw [dayOf, hval, Int.mul_comm, Int.mul_add_ediv_left _ _ (ticksPerDay_pos c).ne',
      Int.ediv_eq_zero_of_lt (by omega) hrange, Int.add_zero]
  have hseconds : timeOfDay tpSys = (k * c.rate : ℕ) := by
    have hsum := dayOf_add tpSys
    rw [hval, hday] at hsum
    omega
  obtain ⟨-, -, hvalid⟩ := hencodes.date
  rw [setTimestamp_eq_some (hinverse tp tpSys hutc), hday, hseconds, htime, ofDays_days hvalid,
    yearMonthDay_ok hencodes.date, setDate_fullDate hvalid hencodes.fields hdate]
  refine ⟨hfits, ?_⟩
  rw [← hencodes.time]

end Avionicpp.Nmea0183
