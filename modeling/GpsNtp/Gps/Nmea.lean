import GpsNtp.Machinery.Ascii
import GpsNtp.Machinery.MachineInt
import GpsNtp.Machinery.Utf8

/-!
# Gps/Nmea — sentences and the snapshot they update

    $GNRMC,hhmmss,A,ddmm.mm,N,dddmm.mm,E,,,ddmmyy,…*XX
           │      │ └── position ──────┘   │        └ XOR of what stands between $ and *
           time   status                   date

Parsing of RMC and GGA sentences, on the bytes of the sentence.  A function returns `none` where the
source panics: at an index out of range, or at a slice whose ends are not character boundaries.  The
calendar, the active timezone and the float parser come from outside (`Platform`).
-/

namespace GpsNtp

open Utf8 Ascii

/-- What the parser takes from chrono, from the timezone in force and from the float parser. -/
structure Platform where
  NaiveDate : Type
  NaiveTime : Type
  fromYmdOpt : ℤ → ℕ → ℕ → Option NaiveDate
  fromHmsOpt : ℕ → ℕ → ℕ → Option NaiveTime
  /-- Unix seconds of a UTC date and time. -/
  timestamp : NaiveDate × NaiveTime → ℤ
  addHours : NaiveDate × NaiveTime → ℤ → NaiveDate × NaiveTime
  /-- The format `%Y-%m-%d`. -/
  formatDate : NaiveDate → List UInt8
  /-- The format `%H:%M:%S`. -/
  formatTime : NaiveTime → List UInt8
  /-- The zone configured: local date and time of a UTC instant, and the offset in seconds. -/
  configuredTimezone : Option (NaiveDate × NaiveTime → (NaiveDate × NaiveTime) × ℤ)
  parseF32 : List UInt8 → Option Float32

/-- A date and time. -/
abbrev Platform.NaiveDateTime (env : Platform) : Type := env.NaiveDate × env.NaiveTime

/-- `GpsSnapshot`. -/
structure GpsSnapshot where
  localDate : List UInt8
  localTime : List UInt8
  tzOffsetHours : Int8
  utcUnixSeconds : Option ℤ
  lat : Float32
  lon : Float32
  fix : Bool
  sats : ℕ
  altitudeM : Option Float32

/-- `GpsSnapshot::default`. -/
def GpsSnapshot.default : GpsSnapshot where
  localDate := []
  localTime := []
  tzOffsetHours := 0
  utcUnixSeconds := none
  lat := 0
  lon := 0
  fix := false
  sats := 0
  altitudeM := none

/-- The coordinates read, where both were. -/
def GpsSnapshot.withPosition (gps : GpsSnapshot) : Option Float32 → Option Float32 → GpsSnapshot
  | some lat, some lon => { gps with lat, lon }
  | _, _ => gps

/-! ## The checksum -/

/-- `str::rfind`, of one byte. -/
def rfind (bs : List UInt8) (b : UInt8) : Option ℕ :=
  (bs.reverse.findIdx? (· == b)).map fun k => bs.length - 1 - k

/-- The slice of a byte array, `none` where taking it would panic. -/
def sliceBytes (bs : List UInt8) (i j : ℕ) : Option (List UInt8) :=
  if i ≤ j ∧ j ≤ bs.length then some ((bs.take j).drop i) else none

/-- `nmea_checksum_valid`. -/
def nmeaChecksumValid (sentence : List UInt8) : Option Bool :=
  if !isAscii sentence then some false
  else if sentence.head? ≠ some '$'.toUInt8 then some false
  else
    match rfind sentence '*'.toUInt8 with
    | none => some false
    | some starIdx =>
      -- `str::get` returns `None` where a slice would panic
      match slice sentence (starIdx + 1) (starIdx + 3) with
      | none => some false
      | some hex =>
        match fromStrRadix 16 255 hex with
        | none => some false
        | some expected => do
          let body ← sliceBytes sentence 1 starIdx
          some ((body.foldl (· ^^^ ·) 0).toNat == expected)

/-! ## Fields -/

/-- `parse_hhmmss`. -/
def parseHhmmss (raw : List UInt8) : Option (Option (List UInt8)) :=
  if raw.length < 6 ∨ !isAscii raw then some none else (slice raw 0 6).map some

/-- `format_hhmmss`. -/
def formatHhmmss (raw6 : List UInt8) : Option (List UInt8) := do
  let hh ← slice raw6 0 2
  let mm ← slice raw6 2 4
  let ss ← slice raw6 4 6
  some (hh ++ [':'.toUInt8] ++ mm ++ [':'.toUInt8] ++ ss)

/-- `parse_ddmmyy`. -/
def parseDdmmyy (raw : List UInt8) : Option (Option (List UInt8)) :=
  if raw.length < 6 ∨ !isAscii raw then some none else (slice raw 0 6).map some

/-- `format_ddmmyy`. -/
def formatDdmmyy (raw6 : List UInt8) : Option (List UInt8) := do
  let yy ← slice raw6 4 6
  let mm ← slice raw6 2 4
  let dd ← slice raw6 0 2
  some (['2'.toUInt8, '0'.toUInt8] ++ yy ++ ['-'.toUInt8] ++ mm ++ ['-'.toUInt8] ++ dd)

namespace Platform

variable (env : Platform)

/-- `nmea_to_decimal`. -/
def nmeaToDecimal (value dir : List UInt8) : Option Float32 :=
  (env.parseF32 value).map fun raw =>
    let degrees := (raw / 100).floor
    let minutes := raw - degrees * 100
    let decimal := degrees + minutes / 60
    if dir = ['S'.toUInt8] ∨ dir = ['W'.toUInt8] then -decimal else decimal

/-- `local_datetime_from_naive_utc`: local date, local time and the offset in hours. -/
def localDatetimeFromNaiveUtc (utc : env.NaiveDateTime) (lon : Float32) :
    Option (List UInt8 × List UInt8 × Int8) :=
  match env.configuredTimezone with
  | some tz =>
    let (dt, localMinusUtc) := tz utc
    some (env.formatDate dt.1, env.formatTime dt.2, Int8.ofInt (localMinusUtc.tdiv 3600))
  | none =>
    let tzOffsetH := (lon / 15).round.toInt8
    let dt := env.addHours utc tzOffsetH.toInt
    some (env.formatDate dt.1, env.formatTime dt.2, tzOffsetH)

/-- The two digits of a field from an index on, as an unsigned number. -/
def digitsU32 (field : List UInt8) (i : ℕ) : Option (Option ℕ) :=
  (slice field i (i + 2)).map (fromStrRadix 10 MachineInt.u32Max)

/-- The date and time that two six-character fields spell. -/
def decodeFields (ddmmyy hhmmss : List UInt8) : Option (Option env.NaiveDateTime) := do
  let some day ← digitsU32 ddmmyy 0 | some none
  let some month ← digitsU32 ddmmyy 2 | some none
  let some yy := fromStrRadixSigned 10 (-2147483648) 2147483647 (← slice ddmmyy 4 6) | some none
  let some hour ← digitsU32 hhmmss 0 | some none
  let some minute ← digitsU32 hhmmss 2 | some none
  let some second ← digitsU32 hhmmss 4 | some none
  let some date := env.fromYmdOpt (2000 + yy) month day | some none
  let some time := env.fromHmsOpt hour minute second | some none
  some (some (date, time))

/-- `utc_datetime_from_fields`. -/
def utcDatetimeFromFields (utcDate utcTime : List UInt8) : Option (Option env.NaiveDateTime) := do
  let some ddmmyy ← parseDdmmyy utcDate | some none
  let some hhmmss ← parseHhmmss utcTime | some none
  env.decodeFields ddmmyy hhmmss

/-- The local date, time and offset of an instant, or the fields themselves with offset 0. -/
def localOrFields (utcDt : Option env.NaiveDateTime) (lon : Float32) (date time : List UInt8) :
    Option (List UInt8 × List UInt8 × Int8) :=
  match utcDt.bind fun dt => env.localDatetimeFromNaiveUtc dt lon with
  | some rendered => some rendered
  | none => do some (← formatDdmmyy date, ← formatHhmmss time, 0)

/-! ## Sentences -/

/-- `parse_rmc`: the value returned and the snapshot it leaves. -/
def parseRmc (sentence : List UInt8) (gps : GpsSnapshot) : Option (Option Unit × GpsSnapshot) := do
  let valid ← nmeaChecksumValid sentence
  let fields := sentence.splitOn ','.toUInt8
  if !valid then some (none, gps)
  else if fields.length < 10 then some (none, gps)
  else
    let some time ← parseHhmmss (← fields[1]?) | some (none, gps)
    let status ← fields[2]?
    let some date ← parseDdmmyy (← fields[9]?) | some (none, gps)
    -- the status is applied before anything that can fail
    let gps := { gps with fix := status == ['A'.toUInt8] }
    let gps :=
      gps.withPosition (env.nmeaToDecimal (← fields[3]?) (← fields[4]?))
        (env.nmeaToDecimal (← fields[5]?) (← fields[6]?))
    let utcDt ← env.utcDatetimeFromFields date time
    let (localDate, localTime, tzOffsetHours) ← env.localOrFields utcDt gps.lon date time
    let gps :=
      { gps with
        localDate, localTime, tzOffsetHours
        utcUnixSeconds := utcDt.map env.timestamp }
    some (some (), gps)

/-- `parse_gga`: the value returned and the snapshot it leaves. -/
def parseGga (sentence : List UInt8) (gps : GpsSnapshot) : Option (Option Unit × GpsSnapshot) := do
  let valid ← nmeaChecksumValid sentence
  let fields := sentence.splitOn ','.toUInt8
  if !valid then some (none, gps)
  else if fields.length < 8 then some (none, gps)
  else
    let some sats := fromStrRadix 10 255 (← fields[7]?) | some (none, gps)
    let gps := { gps with sats }
    let gps ←
      if fields.length ≥ 10 then do
        some { gps with altitudeM := env.parseF32 (← fields[9]?) }
      else some gps
    some (some (), gps)

/-! ## A platform -/

/-- The leap days of the years up to this one, from year 1 on. -/
def leapDaysThrough (year : ℤ) : ℤ := year / 4 - year / 100 + year / 400

/-- The days of each month. -/
def monthLengths (year : ℤ) : List ℕ :=
  let february := if leapDaysThrough year = leapDaysThrough (year - 1) then 28 else 29
  [31, february, 31, 30, 31, 30, 31, 31, 30, 31, 30, 31]

/-- A number in two digits. -/
def twoDigits (n : ℕ) : List UInt8 := [n / 10 % 10, n % 10].map fun d => UInt8.ofNat (0x30 + d)

/-- **The Gregorian calendar and the zone UTC**, where no field is a decimal number. -/
def utcCalendar : Platform where
  NaiveDate := ℤ × ℕ × ℕ
  NaiveTime := ℕ × ℕ × ℕ
  fromYmdOpt year month day :=
    if 1 ≤ month ∧ 1 ≤ day ∧ day ≤ (monthLengths year).getD (month - 1) 0 then
      some (year, month, day)
    else none
  fromHmsOpt hour minute second :=
    if hour < 24 ∧ minute < 60 ∧ second < 60 then some (hour, minute, second) else none
  timestamp := fun ((year, month, day), (hour, minute, second)) =>
    let days := 365 * (year - 1970) + leapDaysThrough (year - 1) - leapDaysThrough 1969 +
      ((monthLengths year).take (month - 1)).sum + (day - 1)
    days * 86400 + hour * 3600 + minute * 60 + second
  addHours dt _ := dt
  formatDate := fun (year, month, day) =>
    twoDigits (year.toNat / 100) ++ twoDigits year.toNat ++ ['-'.toUInt8] ++ twoDigits month ++
      ['-'.toUInt8] ++ twoDigits day
  formatTime := fun (hour, minute, second) =>
    twoDigits hour ++ [':'.toUInt8] ++ twoDigits minute ++ [':'.toUInt8] ++ twoDigits second
  configuredTimezone := some fun utc => (utc, 0)
  parseF32 _ := none

end Platform

end GpsNtp
