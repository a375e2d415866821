import Avionicpp.Foundations.Calendar
import Mathlib.Data.Rat.Floor
import Mathlib.Tactic.Linarith

/-! # Doubles and `std::chrono`

Doubles are exact rationals. The two clocks count the same ticks, whose rate and range are parameters,
as is `clock_cast` between them; an operation whose result does not fit is undefined.
-/
namespace Avionicpp.Foundations
set_option autoImplicit false

/-! ## Doubles -/

/-- The conversion to an integer type, towards zero. -/
def truncate (x : ℚ) : ℤ := x.num.tdiv x.den

/-- `std::fmod` -/
def fmod (x y : ℚ) : ℚ := x - y * truncate (x / y)

def InInt (n : ℤ) : Prop := -2 ^ 31 ≤ n ∧ n < 2 ^ 31

instance (n : ℤ) : Decidable (InInt n) := inferInstanceAs (Decidable (_ ∧ _))

theorem truncate_of_nonneg {x : ℚ} (hx : 0 ≤ x) : truncate x = ⌊x⌋ := by
  rw [truncate, Int.tdiv_eq_ediv_of_nonneg (Rat.num_nonneg.mpr hx), Rat.floor_def']

section
variable (high : ℕ) {m low : ℚ} (h0 : 0 ≤ low) (hm : low < m)
include h0 hm

/-- Division and remainder take a number apart that is written to the base `m`. -/
theorem truncate_div : truncate ((high * m + low) / m) = high := by
  have hpos : 0 < m := h0.trans_lt hm
  have hdiv : (high * m + low) / m = high + low / m := by
    rw [add_div, mul_div_assoc, div_self hpos.ne', mul_one]
  have hlow : 0 ≤ low / m := div_nonneg h0 hpos.le
  have hlow' : low / m < 1 := (div_lt_one hpos).mpr hm
  rw [hdiv, truncate_of_nonneg (add_nonneg high.cast_nonneg hlow), Int.floor_eq_iff]
  constructor
  · push_cast
    linarith
  · push_cast
    linarith

theorem fmod_eq : fmod (high * m + low) m = low := by
  rw [fmod, truncate_div high h0 hm]
  push_cast
  ring

end

/-! ## Dates -/

/-- `static_cast<unsigned>` of an `int` -/
def toUnsigned (n : ℤ) : ℕ := (n % 2 ^ 32).toNat

/-- `year_month_day{year(y), month(m), day(d)}`: a year is stored in a `short`, a month and a day in
an `unsigned char`. -/
def yearMonthDay (year : ℤ) (month day : ℕ) : Date := ⟨year.bmod (2 ^ 16), month % 2 ^ 8, day % 2 ^ 8⟩

/-- `year_month_day::ok` -/
def Date.Ok (date : Date) : Prop := -32767 ≤ date.year ∧ date.year ≤ 32767 ∧ date.Valid

instance (date : Date) : Decidable date.Ok := inferInstanceAs (Decidable (_ ∧ _))

theorem toUnsigned_natCast {n : ℕ} (h : n < 2 ^ 32) : toUnsigned n = n := by
  unfold toUnsigned
  omega

theorem Date.Ok.parts_lt {date : Date} (h : date.Ok) : date.month < 2 ^ 8 ∧ date.day < 2 ^ 8 := by
  obtain ⟨-, -, -, hmonth, -, hday⟩ := h
  have hday' := hday.trans (monthLengths_le date.year (date.month - 1))
  omega

/-- A date of the calendar is stored as it is. -/
theorem yearMonthDay_ok {date : Date} (h : date.Ok) :
    yearMonthDay date.year date.month date.day = date := by
  obtain ⟨hmonth, hday⟩ := h.parts_lt
  have hyear : date.year.bmod (2 ^ 16) = date.year := by
    obtain ⟨hlow, hhigh, -⟩ := h
    apply Int.bmod_eq_of_le <;> omega
  rw [yearMonthDay, hyear, Nat.mod_eq_of_lt hmonth, Nat.mod_eq_of_lt hday]

/-! ## Time points -/

/-- The ticks of `system_clock::duration` and `utc_clock::duration`: how many there are in a second,
and the range of their count. -/
structure Clock where
  rate : ℕ
  min : ℤ
  max : ℤ
  rate_pos : 0 < rate
  min_nonpos : min ≤ 0
  day_le_max : 86401 * rate ≤ max

def Clock.Fits (c : Clock) (n : ℤ) : Prop := c.min ≤ n ∧ n ≤ c.max

instance (c : Clock) (n : ℤ) : Decidable (c.Fits n) := inferInstanceAs (Decidable (_ ∧ _))

/-- A time point, as its count since the epoch. -/
def TimePoint (c : Clock) : Type := {n : ℤ // c.Fits n}

instance (c : Clock) : DecidableEq (TimePoint c) := inferInstanceAs (DecidableEq {n : ℤ // c.Fits n})

def Clock.point (c : Clock) (n : ℤ) : Option (TimePoint c) :=
  if h : c.Fits n then some ⟨n, h⟩ else none

/-- `clock_cast` between `system_clock` and `utc_clock` -/
structure ClockCast (c : Clock) where
  toSys : TimePoint c → Option (TimePoint c)
  toUtc : TimePoint c → Option (TimePoint c)

/-- A clock of nanoseconds in 64 bits. -/
def nanosecondClock : Clock where
  rate := 10 ^ 9
  min := -2 ^ 63
  max := 2 ^ 63 - 1
  rate_pos := by decide
  min_nonpos := by decide
  day_le_max := by decide

/-- The casts as they are while a number of leap seconds has been inserted. -/
def leapSecondCast (c : Clock) (inserted : ℤ) : ClockCast c where
  toSys tp := c.point (tp.1 - inserted * c.rate)
  toUtc tp := c.point (tp.1 + inserted * c.rate)

def Clock.ticksPerDay (c : Clock) : ℤ := 86400 * c.rate

/-- `sys_days` and a duration, both in ticks, and their sum -/
def Clock.sysTime (c : Clock) (days duration : ℤ) : Option (TimePoint c) := do
  let sysDays ← c.point (days * c.ticksPerDay)
  let timeDuration ← c.point duration
  c.point (sysDays.1 + timeDuration.1)

/-! ## Leap seconds -/

/-- How many leap seconds were inserted before the midnight that a day begins with. -/
structure LeapSeconds where
  inserted : ℤ → ℤ
  step : ∀ day, inserted (day + 1) = inserted day ∨ inserted (day + 1) = inserted day + 1

namespace LeapSeconds

theorem countP_le_succ (days : List ℤ) (day : ℤ) :
    days.countP (· ≤ day + 1) = days.countP (· ≤ day) + days.count (day + 1) := by
  induction days with
  | nil => rfl
  | cons first days ih =>
    rw [List.countP_cons, List.countP_cons, List.count_cons, ih]
    simp only [decide_eq_true_eq, beq_iff_eq]
    split_ifs <;> omega

/-- Leap seconds from the days that begin behind one. -/
def ofDays (days : List ℤ) (distinct : days.Nodup) : LeapSeconds where
  inserted day := days.countP (· ≤ day)
  step day := by
    have hone := List.nodup_iff_count.mp distinct (day + 1)
    have hsplit := countP_le_succ days day
    omega

/-- The time of day comes on this day: its last minute has one second more if one is inserted. -/
def HasTime (leaps : LeapSeconds) (day : ℤ) (hh mm : ℕ) (ss : ℚ) : Prop :=
  hh ≤ 23 ∧ mm ≤ 59 ∧ 0 ≤ ss ∧
    (ss < 60 ∨ hh = 23 ∧ mm = 59 ∧ ss < 60 + (leaps.inserted (day + 1) - leaps.inserted day))

/-- Past its sixtieth second a time of day is the last of the day, and the next day begins behind a leap
second. -/
theorem HasTime.leap {leaps : LeapSeconds} {day : ℤ} {hh mm : ℕ} {ss : ℚ}
    (h : leaps.HasTime day hh mm ss) (h60 : 60 ≤ ss) :
    hh = 23 ∧ mm = 59 ∧ leaps.inserted (day + 1) = leaps.inserted day + 1 := by
  obtain ⟨-, -, -, hshort | ⟨hhh, hmm, hleap⟩⟩ := h
  · exact absurd hshort (not_lt.mpr h60)
  · refine ⟨hhh, hmm, ?_⟩
    obtain hsame | hone := leaps.step day
    · rw [hsame, sub_self, add_zero] at hleap
      exact absurd hleap (not_lt.mpr h60)
    · exact hone

/-- What a clock that counts every second of UTC shows at a time of a day. -/
def utcTicks (leaps : LeapSeconds) (c : Clock) (day : ℤ) (hh mm : ℕ) (ss : ℚ) : ℤ :=
  ⌊(86400 * day + leaps.inserted day + (hh * 3600 + mm * 60 + ss)) * c.rate⌋

end LeapSeconds

/-- `utc_clock::from_sys` adds the leap seconds that were inserted before the time point. -/
def ClockCast.CountsLeapSeconds {c : Clock} (cast : ClockCast c) (leaps : LeapSeconds) : Prop :=
  ∀ tpSys, cast.toUtc tpSys =
    c.point (tpSys.1 + leaps.inserted (tpSys.1 / c.ticksPerDay) * c.rate)

/-- `hh_mm_ss`, as the counts of its parts -/
structure HhMmSs where
  hours : ℕ
  minutes : ℕ
  seconds : ℕ
  subseconds : ℕ
  deriving DecidableEq, Repr

/-- The digits that a fraction of a second takes, and 6 if no number up to 18 is enough. -/
def fractionalWidth (rate : ℕ) : ℕ := ((List.range 19).find? fun w => rate ∣ 10 ^ w).getD 6

def hhMmSs (c : Clock) (duration : ℤ) : HhMmSs :=
  let ticks := duration.natAbs
  { hours := ticks / c.rate / 3600
    minutes := ticks / c.rate / 60 % 60
    seconds := ticks / c.rate % 60
    subseconds := ticks % c.rate * 10 ^ fractionalWidth c.rate / c.rate }

theorem point_eq_some {c : Clock} {n : ℤ} {tp : TimePoint c} : c.point n = some tp ↔ tp.1 = n := by
  constructor
  · intro h
    unfold Clock.point at h
    split at h
    · rw [← Option.some.inj h]
    · cases h
  · rintro rfl
    exact dif_pos tp.2

theorem sysTime_eq_some {c : Clock} {days duration : ℤ} {tp : TimePoint c} :
    c.sysTime days duration = some tp ↔
      c.Fits (days * c.ticksPerDay) ∧ c.Fits duration ∧
        tp.1 = days * c.ticksPerDay + duration := by
  simp only [Clock.sysTime, Option.bind_eq_bind, Option.bind_eq_some_iff, point_eq_some]
  constructor
  · rintro ⟨sysDays, hdays, timeDuration, hduration, hsum⟩
    rw [← hdays, ← hduration]
    exact ⟨sysDays.2, timeDuration.2, hsum⟩
  · rintro ⟨hdays, hduration, hsum⟩
    exact ⟨⟨_, hdays⟩, rfl, ⟨_, hduration⟩, rfl, hsum⟩

end Avionicpp.Foundations
