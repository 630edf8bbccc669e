import GpsNtp.Rtc.Clock

/-!
# Ui/TimeSource — local time from the satellites and from the clock chip

    fix, satellites   snapshot's strings          offset round(lon/15), or the zone's
    fallback          clock chip's UTC  ──▸  the zone's local time, or UTC + max(0, offset)

Without a configured zone the display has the parser's offset to go by, and takes the larger of it
and the offset of the zone it does not have, which is reported as 0.  West of Greenwich the fallback
therefore shows UTC (`fallback_local_time_iff`).
-/

namespace GpsNtp.Ui

open Rtc
open Calendar (DateTime)

/-- `RtcSnapshot`. -/
structure RtcSnapshot where
  detected : Bool
  utcUnixSeconds : Option ℤ

/-! ## Rendering -/

/-- A number with at least this many digits, zeros in front. -/
def padNat (width n : ℕ) : List UInt8 :=
  let digits := (Nat.toDigits 10 n).map Char.toUInt8
  List.replicate (width - digits.length) '0'.toUInt8 ++ digits

/-- A signed number of at least this width, zeros between the sign and the digits. -/
def padInt (width : ℕ) (z : ℤ) : List UInt8 :=
  if z < 0 then '-'.toUInt8 :: padNat (width - 1) z.natAbs else padNat width z.natAbs

/-- A date as `2024-06-07`. -/
def dateString (year : ℤ) (month day : ℕ) : List UInt8 :=
  padInt 4 year ++ ['-'.toUInt8] ++ padNat 2 month ++ ['-'.toUInt8] ++ padNat 2 day

/-- A time as `09:30:45`. -/
def timeString (hour minute second : ℕ) : List UInt8 :=
  padNat 2 hour ++ [':'.toUInt8] ++ padNat 2 minute ++ [':'.toUInt8] ++ padNat 2 second

section

variable (env : Chrono)

/-- `local_date_time_from_utc`: date and time at a fixed offset in hours. -/
def localDateTimeFromUtc (utcUnixSeconds : ℤ) (tzOffsetHours : Int8) :
    Option (List UInt8 × List UInt8) := do
  let dt ← env.timestampOpt utcUnixSeconds
  let lt := env.addHours dt tzOffsetHours.toInt
  some (dateString (env.year lt.1) (env.month lt.1) (env.day lt.1),
    timeString (env.hour lt.2) (env.minute lt.2) (env.second lt.2))

/-- `tz_offset_hours_at_unix`: the offset of the configured zone, 0 without one. -/
def tzOffsetHoursAtUnix (utcUnixSeconds : ℤ) : Int8 :=
  match env.configuredTimezone with
  | none => 0
  | some tz =>
    match env.timestampOpt utcUnixSeconds with
    | none => 0
    | some utcDt => Int8.ofInt ((tz utcDt).2.tdiv 3600)

/-- `local_from_utc_unix`: date and time in the configured zone. -/
def localFromUtcUnix (utcUnixSeconds : ℤ) : Option (List UInt8 × List UInt8) := do
  let tz ← env.configuredTimezone
  let utcDt ← env.timestampOpt utcUnixSeconds
  let lt := (tz utcDt).1
  some (env.formatDate lt.1, env.formatTime lt.2)

/-- `gps_use_rtc_fallback`. -/
def gpsUseRtcFallback (gps : GpsSnapshot) : Bool := !gps.fix || gps.sats == 0

/-- The text shown where there is no time. -/
def notAvailable : List UInt8 := "n/a".toUTF8.data.toList

/-- `display_time_source`: time, date and whether they come from the clock chip. -/
def displayTimeSource (gps : GpsSnapshot) (rtc : RtcSnapshot) : List UInt8 × List UInt8 × Bool :=
  if gpsUseRtcFallback gps then
    match rtc.utcUnixSeconds with
    | none => (notAvailable, notAvailable, true)
    | some utc =>
      match localFromUtcUnix env utc with
      | some (date, time) => (time, date, true)
      | none =>
        let offset := max (tzOffsetHoursAtUnix env utc) gps.tzOffsetHours
        match localDateTimeFromUtc env utc offset with
        | some (date, time) => (time, date, true)
        | none => (notAvailable, notAvailable, true)
  else (gps.localTime, gps.localDate, false)

/-- `rtc_local_strings`: time and date. -/
def rtcLocalStrings (rtc : RtcSnapshot) (tzOffsetHours : Int8) : List UInt8 × List UInt8 :=
  if !rtc.detected then (notAvailable, notAvailable)
  else
    match rtc.utcUnixSeconds with
    | none => (notAvailable, notAvailable)
    | some utc =>
      match localFromUtcUnix env utc with
      | some (date, time) => (time, date)
      | none =>
        let offset := max (tzOffsetHoursAtUnix env utc) tzOffsetHours
        match localDateTimeFromUtc env utc offset with
        | some (date, time) => (time, date)
        | none => (notAvailable, notAvailable)

end

/-! ## Chrono's arithmetic and formats -/

/-- The date and time that chrono has for an instant. -/
def Made (env : Chrono) (t : DateTime) (dt : env.NaiveDateTime) : Prop :=
  env.fromYmdOpt t.year t.month t.day = some dt.1 ∧
    env.fromHmsOpt t.hour t.minute t.second = some dt.2

/-- **Chrono adds hours to the instant and writes its fields in decimal.** -/
structure Renders (env : Chrono) : Prop extends toCalendar : env.Gregorian where
  addHours : ∀ (t t' : DateTime) (dt dt' : env.NaiveDateTime) (hours : ℤ), Made env t dt →
    Made env t' dt' → t'.unixSeconds = t.unixSeconds + hours * 3600 → env.addHours dt hours = dt'
  formatDate : ∀ (year : ℤ) (month day : ℕ) (date : env.NaiveDate),
    env.fromYmdOpt year month day = some date → 0 ≤ year → year ≤ 9999 →
      env.formatDate date = dateString year month day
  formatTime : ∀ (hour minute second : ℕ) (time : env.NaiveTime),
    env.fromHmsOpt hour minute second = some time →
      env.formatTime time = timeString hour minute second

section

variable {env : Chrono}

/-- The shift of an instant of this century by half a day at most. -/
theorem Renders.shifted (henv : Renders env) {u hours : ℤ} (hlow : 946684800 ≤ u)
    (hhigh : u < 4102444800) (hhours : -12 ≤ hours ∧ hours ≤ 12) :
    ∃ utc dt : env.NaiveDateTime, env.timestampOpt u = some utc ∧ env.addHours utc hours = dt ∧
      Made env (DateTime.ofUnixSeconds (u + hours * 3600)) dt ∧
      0 ≤ (DateTime.ofUnixSeconds (u + hours * 3600)).year ∧
      (DateTime.ofUnixSeconds (u + hours * 3600)).year ≤ 9999 := by
  have hyears : ∀ v, -62135596800 ≤ v → v < 253402300800 →
      1 ≤ (DateTime.ofUnixSeconds v).year ∧ (DateTime.ofUnixSeconds v).year ≤ 9999 := by
    intro v hv hv'
    obtain ⟨hreal, hunix⟩ := DateTime.ofUnixSeconds_spec v
    exact year_bounds_of_unixSeconds hreal (hv.trans hunix.ge) (hunix.trans_lt hv')
  obtain ⟨hreal, hunix⟩ := DateTime.ofUnixSeconds_spec u
  obtain ⟨hreal', hunix'⟩ := DateTime.ofUnixSeconds_spec (u + hours * 3600)
  have hyear := hyears u (by omega) (by omega)
  have hyear' := hyears (u + hours * 3600) (by omega) (by omega)
  obtain ⟨date, time, hdate, htime, -, hopt⟩ :=
    henv.exists_instant hreal ⟨by omega, by omega⟩
  obtain ⟨date', time', hdate', htime', -⟩ :=
    henv.exists_instant hreal' ⟨by omega, by omega⟩
  rw [hunix] at hopt
  refine ⟨(date, time), (date', time'), hopt, ?_, ⟨hdate', htime'⟩, by omega, hyear'.2⟩
  exact henv.addHours _ _ (date, time) (date', time') hours ⟨hdate, htime⟩ ⟨hdate', htime'⟩ (by omega)

/-- The strings of a second, shifted by hours. -/
def shiftedStrings (u hours : ℤ) : List UInt8 × List UInt8 :=
  let t := DateTime.ofUnixSeconds (u + hours * 3600)
  (dateString t.year t.month t.day, timeString t.hour t.minute t.second)

theorem Renders.localDateTimeFromUtc_eq (henv : Renders env) {u : ℤ} {offset : Int8}
    (hlow : 946684800 ≤ u) (hhigh : u < 4102444800)
    (hoffset : -12 ≤ offset.toInt ∧ offset.toInt ≤ 12) :
    localDateTimeFromUtc env u offset = some (shiftedStrings u offset.toInt) := by
  obtain ⟨utc, dt, hutc, hadd, ⟨hdate, htime⟩, -⟩ := henv.shifted hlow hhigh hoffset
  obtain ⟨hyear, hmonth, hday⟩ := henv.readDate _ _ _ _ hdate
  obtain ⟨hhour, hminute, hsecond⟩ := henv.readTime _ _ _ _ htime
  rw [localDateTimeFromUtc, hutc, Option.bind_eq_bind, Option.bind_some, hadd]
  dsimp only
  rw [hyear, hmonth, hday, hhour, hminute, hsecond, shiftedStrings]

/-- The parser's local time without a zone. -/
theorem Renders.localDatetimeFromNaiveUtc_eq (henv : Renders env)
    (hzone : env.configuredTimezone = none) {u : ℤ} {lon : Float32} {utc : env.NaiveDateTime}
    (hlow : 946684800 ≤ u) (hhigh : u < 4102444800)
    (hoffset : -12 ≤ (lon / 15).round.toInt8.toInt ∧ (lon / 15).round.toInt8.toInt ≤ 12)
    (hutc : env.timestampOpt u = some utc) :
    env.localDatetimeFromNaiveUtc utc lon =
      some ((shiftedStrings u (lon / 15).round.toInt8.toInt).1,
        (shiftedStrings u (lon / 15).round.toInt8.toInt).2, (lon / 15).round.toInt8) := by
  obtain ⟨utc', dt, hutc', hadd, ⟨hdate, htime⟩, hfirst, hlast⟩ := henv.shifted hlow hhigh hoffset
  obtain rfl := Option.some.inj (hutc.symm.trans hutc')
  rw [Platform.localDatetimeFromNaiveUtc, hzone]
  dsimp only
  rw [hadd, henv.formatDate _ _ _ _ hdate hfirst hlast, henv.formatTime _ _ _ _ htime,
    shiftedStrings]

end

/-! ## A platform without a zone -/

/-- The platform written out, with no zone and with its hours added. -/
def longitudeCalendar : Chrono where
  toPlatform :=
    { Platform.utcCalendar with
      configuredTimezone := none
      addHours := fun dt hours =>
        let t := DateTime.ofUnixSeconds (Platform.utcCalendar.timestamp dt + hours * 3600)
        ((t.year, t.month, t.day), (t.hour, t.minute, t.second))
      formatDate := fun (year, month, day) => dateString year month day
      formatTime := fun (hour, minute, second) => timeString hour minute second }
  timestampOpt := Chrono.utcCalendar.timestampOpt
  year := Chrono.utcCalendar.year
  month := Chrono.utcCalendar.month
  day := Chrono.utcCalendar.day
  hour := Chrono.utcCalendar.hour
  minute := Chrono.utcCalendar.minute
  second := Chrono.utcCalendar.second

theorem longitudeCalendar_made {t : DateTime} {dt : longitudeCalendar.NaiveDateTime}
    (h : Made longitudeCalendar t dt) :
    t.Real ∧ dt = ((t.year, t.month, t.day), (t.hour, t.minute, t.second)) := by
  obtain ⟨hdate, htime⟩ := h
  rw [show longitudeCalendar.fromYmdOpt t.year t.month t.day = _ from
    Platform.utcCalendar_fromYmdOpt t.year t.month t.day] at hdate
  obtain ⟨hreal, hdate⟩ := Option.ite_none_right_eq_some.mp hdate
  obtain ⟨htimeOfDay, htime⟩ := Option.ite_none_right_eq_some.mp htime
  exact ⟨⟨hreal, htimeOfDay⟩, Prod.ext (Option.some.inj hdate).symm (Option.some.inj htime).symm⟩

theorem longitudeCalendar_renders : Renders longitudeCalendar where
  date := Chrono.utcCalendar_gregorian.date
  time := Chrono.utcCalendar_gregorian.time
  instant := Chrono.utcCalendar_gregorian.instant
  readDate := Chrono.utcCalendar_gregorian.readDate
  readTime := Chrono.utcCalendar_gregorian.readTime
  timestampOpt_timestamp := Chrono.utcCalendar_gregorian.timestampOpt_timestamp
  addHours t t' dt dt' hours h h' hshift := by
    have hstamp := Chrono.utcCalendar_gregorian.instant t dt.1 dt.2 h.1 h.2
    obtain ⟨hreal', rfl⟩ := longitudeCalendar_made h'
    have hback := hreal'.ofUnixSeconds_unixSeconds
    rw [hshift] at hback
    have hsum : Platform.utcCalendar.timestamp dt + hours * 3600 = t.unixSeconds + hours * 3600 :=
      congrArg (· + hours * 3600) hstamp
    dsimp only [longitudeCalendar]
    rw [hsum, hback]
    rfl
  formatDate year month day date h _ _ := by
    obtain ⟨-, h⟩ := Option.ite_none_right_eq_some.mp h
    obtain rfl := Option.some.inj h
    rfl
  formatTime hour minute second time h := by
    obtain ⟨-, h⟩ := Option.ite_none_right_eq_some.mp h
    obtain rfl := Option.some.inj h
    rfl

/-! ## The two paths -/

theorem padNat_two_injective : ∀ a < 24, ∀ b < 24, padNat 2 a = padNat 2 b → a = b := by
  decide +kernel

theorem length_padNat_two : ∀ a < 24, (padNat 2 a).length = 2 := by
  decide +kernel

/-- The clock face shows by how much of a day less than a whole one a second was shifted. -/
theorem shiftedStrings_ne {u hours : ℤ} (hhours : -12 ≤ hours ∧ hours < 0) :
    (shiftedStrings u 0).2 ≠ (shiftedStrings u hours).2 := by
  intro h
  have hbound : ∀ v, (DateTime.ofUnixSeconds v).hour < 24 := fun v =>
    (DateTime.ofUnixSeconds_spec v).1.time.1
  have hlengths := (length_padNat_two _ (hbound (u + 0 * 3600))).trans
    (length_padNat_two _ (hbound (u + hours * 3600))).symm
  simp only [shiftedStrings, timeString, List.append_assoc] at h
  have hhour := padNat_two_injective _ (hbound _) _ (hbound _) (List.append_inj_left h hlengths)
  simp only [DateTime.ofUnixSeconds] at hhour
  omega

/-- Without a zone the fallback takes the offset only where it is not negative. -/
theorem max_zero_toInt (offset : Int8) : (max 0 offset).toInt = max 0 offset.toInt := by
  have hmax : max 0 offset = if (0 : Int8) ≤ offset then offset else 0 := rfl
  rw [hmax]
  split_ifs with h
  · have hle : 0 ≤ offset.toInt := Int8.le_iff_toInt_le.mp h
    rw [max_eq_right hle]
  · have hlt : ¬0 ≤ offset.toInt := fun hle => h (Int8.le_iff_toInt_le.mpr hle)
    rw [max_eq_left (by omega)]
    rfl

section

variable {env : Chrono} {u : ℤ} {gps : GpsSnapshot} {rtc : RtcSnapshot}

/-- What the fallback shows without a zone. -/
theorem Renders.fallback_eq (henv : Renders env) (hzone : env.configuredTimezone = none)
    (hlow : 946684800 ≤ u) (hhigh : u < 4102444800) {offset : Int8}
    (hoffset : -12 ≤ offset.toInt ∧ offset.toInt ≤ 12) :
    localFromUtcUnix env u = none ∧
      localDateTimeFromUtc env u (max (tzOffsetHoursAtUnix env u) offset) =
        some (shiftedStrings u (max 0 offset.toInt)) := by
  have hlookup : tzOffsetHoursAtUnix env u = 0 := by rw [tzOffsetHoursAtUnix, hzone]
  refine ⟨by rw [localFromUtcUnix, hzone]; rfl, ?_⟩
  have hmax : -12 ≤ (max 0 offset).toInt ∧ (max 0 offset).toInt ≤ 12 := by
    rw [max_zero_toInt]
    omega
  rw [hlookup, henv.localDateTimeFromUtc_eq hlow hhigh hmax, max_zero_toInt]

theorem shiftedStrings_max_iff {hours : ℤ} (hhours : -12 ≤ hours ∧ hours ≤ 12) :
    shiftedStrings u (max 0 hours) = shiftedStrings u hours ↔ 0 ≤ hours := by
  constructor
  · intro h
    by_contra hneg
    rw [max_eq_left (by omega)] at h
    exact shiftedStrings_ne ⟨hhours.1, by omega⟩ (congrArg Prod.snd h)
  · intro h
    rw [max_eq_right h]

/-- **The fallback shows the parser's local time exactly where the offset is not negative**, on any
platform with the Gregorian calendar and without a configured zone. -/
theorem fallback_local_time_iff (henv : Renders env) (hzone : env.configuredTimezone = none)
    (hlow : 946684800 ≤ u) (hhigh : u < 4102444800) (hfallback : gpsUseRtcFallback gps = true)
    (hoffset : -12 ≤ gps.tzOffsetHours.toInt ∧ gps.tzOffsetHours.toInt ≤ 12)
    (hdetected : rtc.detected = true) (hutc : rtc.utcUnixSeconds = some u) :
    (∀ (utc : env.NaiveDateTime) (lon : Float32), env.timestampOpt u = some utc →
      (lon / 15).round.toInt8 = gps.tzOffsetHours →
        env.localDatetimeFromNaiveUtc utc lon =
          some ((shiftedStrings u gps.tzOffsetHours.toInt).1,
            (shiftedStrings u gps.tzOffsetHours.toInt).2, gps.tzOffsetHours)) ∧
    (displayTimeSource env gps rtc =
        ((shiftedStrings u gps.tzOffsetHours.toInt).2,
          (shiftedStrings u gps.tzOffsetHours.toInt).1, true) ↔
      0 ≤ gps.tzOffsetHours.toInt) ∧
    (rtcLocalStrings env rtc gps.tzOffsetHours =
        ((shiftedStrings u gps.tzOffsetHours.toInt).2,
          (shiftedStrings u gps.tzOffsetHours.toInt).1) ↔
      0 ≤ gps.tzOffsetHours.toInt) := by
  obtain ⟨hnone, hsome⟩ := henv.fallback_eq hzone hlow hhigh hoffset
  have hstrings := @shiftedStrings_max_iff u _ hoffset
  refine ⟨fun utc lon hutc' hlon => ?_, ?_, ?_⟩
  · rw [← hlon] at hoffset ⊢
    exact henv.localDatetimeFromNaiveUtc_eq hzone hlow hhigh hoffset hutc'
  · rw [← hstrings, displayTimeSource, if_pos hfallback, hutc]
    dsimp only
    rw [hnone, hsome]
    simp only [Prod.ext_iff, and_true]
    exact and_comm
  · rw [← hstrings, rtcLocalStrings, hdetected, hutc]
    dsimp only
    rw [hnone, hsome]
    simp only [Bool.not_true, Prod.ext_iff]
    exact and_comm

end

/-- A snapshot without a fix whose last longitude was this many hours from Greenwich. -/
def lostFix (hours : Int8) : GpsSnapshot := { GpsSnapshot.default with tzOffsetHours := hours }

/-- Two hours east of Greenwich at the beginning of 2026. -/
theorem fallback_local_time_east :
    displayTimeSource longitudeCalendar (lostFix 2) ⟨true, some 1767225600⟩ =
      ((shiftedStrings 1767225600 2).2, (shiftedStrings 1767225600 2).1, true) :=
  (@fallback_local_time_iff longitudeCalendar 1767225600 (lostFix 2) ⟨true, some 1767225600⟩
    longitudeCalendar_renders rfl (by decide) (by decide) rfl (by decide) rfl rfl).2.1.mpr
      (by decide)

/-- Six hours west of Greenwich at noon, the fallback shows noon and the parser six. -/
theorem fallback_shows_utc_west :
    displayTimeSource longitudeCalendar (lostFix (-6)) ⟨true, some 1767268800⟩ =
        ("12:00:00".toUTF8.data.toList, "2026-01-01".toUTF8.data.toList, true) ∧
      rtcLocalStrings longitudeCalendar ⟨true, some 1767268800⟩ (-6) =
        ("12:00:00".toUTF8.data.toList, "2026-01-01".toUTF8.data.toList) ∧
      ∀ lon : Float32, (lon / 15).round.toInt8 = -6 →
        longitudeCalendar.localDatetimeFromNaiveUtc ((2026, 1, 1), (12, 0, 0)) lon =
          some ("2026-01-01".toUTF8.data.toList, "06:00:00".toUTF8.data.toList, -6) := by
  refine ⟨by decide +kernel, by decide +kernel, fun lon hlon => ?_⟩
  have hlive : longitudeCalendar.localDatetimeFromNaiveUtc ((2026, 1, 1), (12, 0, 0)) lon =
      some ((shiftedStrings 1767268800 (lon / 15).round.toInt8.toInt).1,
        (shiftedStrings 1767268800 (lon / 15).round.toInt8.toInt).2, (lon / 15).round.toInt8) :=
    longitudeCalendar_renders.localDatetimeFromNaiveUtc_eq rfl (by decide) (by decide)
      (by rw [hlon]; decide) rfl
  rw [hlive, hlon]
  decide +kernel

end GpsNtp.Ui
