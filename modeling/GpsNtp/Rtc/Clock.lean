import GpsNtp.Gps.Datetime
import GpsNtp.Rtc.Registers

/-!
# Rtc/Clock — the clock chip keeps the instant

    u ──▸ civil date ──encode──▸ │ 7 registers │ ──decode──▸ civil date ──▸ u

Unix seconds are written to the chip as a civil date and read back as one.  The calendar comes from
outside (`Chrono`); the registers hold two digits of the year, so that this century's instants from
2020 on survive.
-/

namespace GpsNtp.Rtc

open Calendar (RealDate DateTime)

/-! ## The calendar outside -/

/-- What the clock takes from chrono beside the parser's platform. -/
structure Chrono extends Platform where
  /-- `Utc.timestamp_opt` of whole seconds. -/
  timestampOpt : ℤ → Option (NaiveDate × NaiveTime)
  year : NaiveDate → ℤ
  month : NaiveDate → ℕ
  day : NaiveDate → ℕ
  hour : NaiveTime → ℕ
  minute : NaiveTime → ℕ
  second : NaiveTime → ℕ

/-- **Chrono's calendar is the Gregorian one**: its dates and times are read as they were made, and
their seconds name them. -/
structure Chrono.Gregorian (env : Chrono) : Prop extends env.toPlatform.Gregorian where
  readDate : ∀ (year : ℤ) (month day : ℕ) (date : env.NaiveDate),
    env.fromYmdOpt year month day = some date →
      env.year date = year ∧ env.month date = month ∧ env.day date = day
  readTime : ∀ (hour minute second : ℕ) (time : env.NaiveTime),
    env.fromHmsOpt hour minute second = some time →
      env.hour time = hour ∧ env.minute time = minute ∧ env.second time = second
  timestampOpt_timestamp : ∀ (t : DateTime) (date : env.NaiveDate) (time : env.NaiveTime),
    env.fromYmdOpt t.year t.month t.day = some date →
    env.fromHmsOpt t.hour t.minute t.second = some time →
    env.timestampOpt (env.timestamp (date, time)) = some (date, time)

namespace Chrono

/-- The platform written out, with its calendar read backwards. -/
def utcCalendar : Chrono where
  toPlatform := Platform.utcCalendar
  timestampOpt u :=
    let t := DateTime.ofUnixSeconds u
    some ((t.year, t.month, t.day), (t.hour, t.minute, t.second))
  year := fun (year, _, _) => year
  month := fun (_, month, _) => month
  day := fun (_, _, day) => day
  hour := fun (hour, _, _) => hour
  minute := fun (_, minute, _) => minute
  second := fun (_, _, second) => second

theorem utcCalendar_gregorian : utcCalendar.Gregorian where
  toGregorian := Platform.utcCalendar_gregorian
  readDate year month day date h := by
    rw [show utcCalendar.fromYmdOpt year month day = _ from
      Platform.utcCalendar_fromYmdOpt year month day] at h
    obtain ⟨-, h⟩ := Option.ite_none_right_eq_some.mp h
    obtain rfl := Option.some.inj h
    exact ⟨rfl, rfl, rfl⟩
  readTime hour minute second time h := by
    obtain ⟨-, h⟩ := Option.ite_none_right_eq_some.mp h
    obtain rfl := Option.some.inj h
    exact ⟨rfl, rfl, rfl⟩
  timestampOpt_timestamp t date time hdate htime := by
    have hinstant := Platform.utcCalendar_gregorian.instant t date time hdate htime
    rw [show utcCalendar.fromYmdOpt t.year t.month t.day = _ from
      Platform.utcCalendar_fromYmdOpt t.year t.month t.day] at hdate
    obtain ⟨hreal, hdate⟩ := Option.ite_none_right_eq_some.mp hdate
    obtain ⟨htimeOfDay, htime⟩ := Option.ite_none_right_eq_some.mp htime
    obtain rfl := Option.some.inj hdate
    obtain rfl := Option.some.inj htime
    have hback := DateTime.Real.ofUnixSeconds_unixSeconds (t := t) ⟨hreal, htimeOfDay⟩
    refine (congrArg utcCalendar.timestampOpt hinstant).trans ?_
    refine congrArg some (?_ : ((_, _, _), (_, _, _)) = ((t.year, t.month, t.day), (_, _, _)))
    rw [hback]

end Chrono

/-! ## Seconds and fields -/

section

variable (env : Chrono)

/-- `datetime_to_unix_seconds`. -/
def datetimeToUnixSeconds (dt : RtcDateTime) : Option ℤ := do
  let date ← env.fromYmdOpt dt.year dt.month dt.day
  let time ← env.fromHmsOpt dt.hour dt.minute dt.second
  some (env.timestamp (date, time))

/-- `unix_seconds_to_datetime`. -/
def unixSecondsToDatetime (unixSeconds : ℤ) : Option RtcDateTime := do
  let dt ← env.timestampOpt unixSeconds
  some {
    year := env.year dt.1
    month := env.month dt.1
    day := env.day dt.1
    hour := env.hour dt.2
    minute := env.minute dt.2
    second := env.second dt.2 }

end

section

variable {env : Chrono}

/-- Chrono has every instant of its years. -/
theorem Chrono.Gregorian.exists_instant (h : env.Gregorian) {t : DateTime} (ht : t.Real)
    (hyear : -262143 ≤ t.year ∧ t.year ≤ 262142) :
    ∃ (date : env.NaiveDate) (time : env.NaiveTime),
      env.fromYmdOpt t.year t.month t.day = some date ∧
        env.fromHmsOpt t.hour t.minute t.second = some time ∧
        env.timestamp (date, time) = t.unixSeconds ∧
        env.timestampOpt t.unixSeconds = some (date, time) := by
  obtain ⟨date, hdate⟩ := Option.isSome_iff_exists.mp ((h.date _ _ _ hyear.1 hyear.2).mpr ht.date)
  obtain ⟨time, htime⟩ := Option.isSome_iff_exists.mp ((h.time _ _ _).mpr ht.time)
  have hinstant := h.instant t date time hdate htime
  refine ⟨date, time, hdate, htime, hinstant, ?_⟩
  rw [← hinstant]
  exact h.timestampOpt_timestamp t date time hdate htime

end

/-! ## The round trip -/

/-- The years that an instant between the beginnings of two years lies in. -/
theorem year_bounds_of_unixSeconds {t : DateTime} (ht : t.Real) {first last : ℤ}
    (hlow : (Calendar.daysBefore first - Calendar.daysBefore 1970) * 86400 ≤ t.unixSeconds)
    (hhigh : t.unixSeconds < (Calendar.daysBefore (last + 1) - Calendar.daysBefore 1970) * 86400) :
    first ≤ t.year ∧ t.year ≤ last := by
  obtain ⟨hstart, hend⟩ := ht.unixSeconds_bounds le_rfl le_rfl
  constructor
  · by_contra hlt
    have hmono := @Calendar.daysBefore_mono (t.year + 1) first (by omega)
    omega
  · by_contra hlt
    have hmono := @Calendar.daysBefore_mono (last + 1) t.year (by omega)
    omega

/-- **What is written to the clock chip reads back as the same second**, from 2020 to 2099. -/
theorem rtc_round_trip {env : Chrono} (henv : env.Gregorian) {u : ℤ} (hlow : 1577836800 ≤ u)
    (hhigh : u < 4102444800) :
    ∃ dt, unixSecondsToDatetime env u = some dt ∧
      decodeDatetimeRegs (encodeDatetimeRegs dt) = some dt ∧
      datetimeToUnixSeconds env dt = some u := by
  obtain ⟨ht, hu⟩ := DateTime.ofUnixSeconds_spec u
  generalize DateTime.ofUnixSeconds u = t at ht hu
  subst hu
  obtain ⟨hfirst, hlast⟩ := @year_bounds_of_unixSeconds t ht 2020 2099 hlow hhigh
  obtain ⟨date, time, hdate, htime, hstamp, hopt⟩ :=
    henv.exists_instant ht ⟨by omega, by omega⟩
  obtain ⟨hyear, hmonth, hday⟩ := henv.readDate _ _ _ _ hdate
  obtain ⟨hhour, hminute, hsecond⟩ := henv.readTime _ _ _ _ htime
  refine ⟨t, ?_, decodeDatetimeRegs_encodeDatetimeRegs ?_ hlast, ?_⟩
  · rw [unixSecondsToDatetime, hopt, Option.bind_eq_bind, Option.bind_some, hyear, hmonth, hday,
      hhour, hminute, hsecond]
  · obtain ⟨⟨hmonths, hdays, hlength⟩, hhours, hminutes, hseconds⟩ := ht
    have hthirty : Calendar.monthLength t.year t.month ≤ 31 := by
      rw [Calendar.monthLength]
      split_ifs <;> decide
    exact ⟨hmonths, ⟨hdays, hlength.trans hthirty⟩, Nat.le_of_lt_succ hhours,
      Nat.le_of_lt_succ hminutes, Nat.le_of_lt_succ hseconds, hfirst⟩
  · rw [datetimeToUnixSeconds, hdate, Option.bind_eq_bind, Option.bind_some, htime,
      Option.bind_eq_bind, Option.bind_some, hstamp]

/-- The last second before March of a leap year. -/
theorem rtc_round_trip_leap_day :
    ∃ dt, unixSecondsToDatetime Chrono.utcCalendar 1709251199 = some dt ∧
      decodeDatetimeRegs (encodeDatetimeRegs dt) = some dt ∧
      datetimeToUnixSeconds Chrono.utcCalendar dt = some 1709251199 :=
  rtc_round_trip Chrono.utcCalendar_gregorian (by decide) (by decide)

end GpsNtp.Rtc
