import GpsNtp.Gps.Sentence
import GpsNtp.Machinery.Calendar

/-!
# Gps/Datetime — which fields are an instant

    dd │ mm │ yy ⋯        hh │ mm │ ss ⋯          six windows of two characters

The integer parsers of the standard library read the windows, and these take a sign for a digit: a
`+` in any window, a `-` in that of the year, which then counts back from 2000.  Fields without
signs are an instant exactly when they are its digits (`fields_exact_iff_unsigned`).
-/

namespace GpsNtp

open Utf8 Ascii
open Calendar (DateTime RealDate)

/-! ## The calendar outside -/

/-- **The platform's calendar is the Gregorian one**, in the range of its dates. -/
structure Platform.Gregorian (env : Platform) : Prop where
  date : ∀ (year : ℤ) (month day : ℕ), -262143 ≤ year → year ≤ 262142 →
    ((env.fromYmdOpt year month day).isSome ↔ RealDate year month day)
  time : ∀ hour minute second : ℕ, (env.fromHmsOpt hour minute second).isSome ↔
    hour < 24 ∧ minute < 60 ∧ second < 60
  instant : ∀ (t : DateTime) (date : env.NaiveDate) (time : env.NaiveTime),
    env.fromYmdOpt t.year t.month t.day = some date →
    env.fromHmsOpt t.hour t.minute t.second = some time →
    env.timestamp (date, time) = t.unixSeconds

namespace Platform

theorem leapDaysThrough_eq_iff (year : ℤ) :
    leapDaysThrough year = leapDaysThrough (year - 1) ↔ ¬Calendar.IsLeap year := by
  rw [leapDaysThrough, leapDaysThrough, Calendar.IsLeap]
  omega

theorem monthLengths_eq (year : ℤ) :
    monthLengths year = (List.range 12).map fun m => Calendar.monthLength year (m + 1) := by
  by_cases hleap : Calendar.IsLeap year
  · simp [monthLengths, leapDaysThrough_eq_iff, Calendar.monthLength, List.range_succ, hleap]
  · simp [monthLengths, leapDaysThrough_eq_iff, Calendar.monthLength, List.range_succ, hleap]

theorem sum_monthLengths {year : ℤ} {m : ℕ} (hm : m ≤ 12) :
    ((monthLengths year).take m).sum = Calendar.daysThrough year m := by
  rw [monthLengths_eq, ← List.map_take, List.take_range, min_eq_left hm]
  induction m with
  | zero => rfl
  | succ m ih =>
    rw [List.range_succ, List.map_append, List.sum_append, ih (by omega), List.map_singleton,
      List.sum_singleton, Calendar.daysThrough]

theorem utcCalendar_fromYmdOpt (year : ℤ) (month day : ℕ) :
    utcCalendar.fromYmdOpt year month day =
      if RealDate year month day then some ((year, month, day) : ℤ × ℕ × ℕ) else none := by
  have hlength : ∀ m, (monthLengths year).getD m 0 =
      if m < 12 then Calendar.monthLength year (m + 1) else 0 := fun m => by
    rw [monthLengths_eq, List.getD_eq_getElem?_getD, List.getElem?_map]
    split_ifs with hm
    · rw [List.getElem?_range hm]
      rfl
    · rw [List.getElem?_eq_none (by rw [List.length_range]; omega)]
      rfl
  refine if_congr ?_ rfl rfl
  rw [hlength]
  constructor
  · rintro ⟨hmonth, hday, hle⟩
    split_ifs at hle with hlast
    · rw [Nat.sub_add_cancel hmonth] at hle
      exact ⟨⟨hmonth, by omega⟩, hday, hle⟩
    · omega
  · rintro ⟨⟨hmonth, hlast⟩, hday, hle⟩
    rw [if_pos (by omega), Nat.sub_add_cancel hmonth]
    exact ⟨hmonth, hday, hle⟩

/-- **The platform written out has the Gregorian calendar.** -/
theorem utcCalendar_gregorian : utcCalendar.Gregorian where
  date year month day _ _ := by
    rw [utcCalendar_fromYmdOpt]
    exact Option.isSome_ite
  time _ _ _ := Option.isSome_ite
  instant t date time hdate htime := by
    rw [utcCalendar_fromYmdOpt] at hdate
    obtain ⟨hreal, hdate⟩ := Option.ite_none_right_eq_some.mp hdate
    obtain ⟨-, htime⟩ := Option.ite_none_right_eq_some.mp htime
    obtain rfl := Option.some.inj hdate
    obtain rfl := Option.some.inj htime
    have hmonths := @sum_monthLengths t.year (t.month - 1) (by have := hreal.monthRange; omega)
    rw [DateTime.unixSeconds, ← hmonths]
    dsimp only [utcCalendar, Calendar.daysBefore, leapDaysThrough]
    ring

end Platform

/-! ## Windows -/

/-- The two characters of a field from an index on. -/
def window (raw : List UInt8) (i : ℕ) : List UInt8 := (raw.drop i).take 2

theorem SixAscii.slice_take {raw : List UInt8} (h : SixAscii raw) {i : ℕ} (hi : i + 2 ≤ 6) :
    Utf8.slice (raw.take 6) i (i + 2) = some (window raw i) := by
  rw [h.take.slice (Nat.le_add_right i 2) hi, List.take_take, min_eq_left hi, List.drop_take,
    Nat.add_sub_cancel_left, window]

/-- The windows that an instant is read from. -/
def windows (utcDate utcTime : List UInt8) : List (List UInt8) :=
  [window utcDate 0, window utcDate 2, window utcDate 4, window utcTime 0, window utcTime 2,
    window utcTime 4]

theorem length_windows {utcDate utcTime : List UInt8} :
    ∀ src ∈ windows utcDate utcTime, src.length ≤ 2 := by
  simp only [windows, List.forall_mem_cons]
  exact ⟨List.length_take_le _ _, List.length_take_le _ _, List.length_take_le _ _,
    List.length_take_le _ _, List.length_take_le _ _, List.length_take_le _ _,
    List.forall_mem_nil _⟩

/-- **The fields spell an instant**, with these numerals for the year and for the rest. -/
structure Spelled (numeral : List UInt8 → ℕ → Prop) (yearNumeral : List UInt8 → ℤ → Prop)
    (utcDate utcTime : List UInt8) (t : DateTime) : Prop where
  dateField : SixAscii utcDate
  timeField : SixAscii utcTime
  day : numeral (window utcDate 0) t.day
  month : numeral (window utcDate 2) t.month
  year : yearNumeral (window utcDate 4) (t.year - 2000)
  hour : numeral (window utcTime 0) t.hour
  minute : numeral (window utcTime 2) t.minute
  second : numeral (window utcTime 4) t.second

/-- A number of a signed type in digits. -/
def IsNatural (digits : List UInt8) (v : ℤ) : Prop := ∃ n : ℕ, IsDecimal digits n ∧ v = n

/-- Digits behind one `+` or none, as the unsigned types take them. -/
def ReadAsUnsigned (src : List UInt8) (v : ℕ) : Prop := IsDecimal (unsign src) v

/-- Digits behind one sign or none, as the signed types take them. -/
def ReadAsSigned (src : List UInt8) (v : ℤ) : Prop :=
  IsNatural (unsign src) v ∨ ∃ digits, src = '-'.toUInt8 :: digits ∧ IsNatural digits (-v)

/-- **The fields are digits** of an instant. -/
def SpelledInDigits : List UInt8 → List UInt8 → DateTime → Prop := Spelled IsDecimal IsNatural

/-- What the parser reads. -/
def SpelledWithSigns : List UInt8 → List UInt8 → DateTime → Prop :=
  Spelled ReadAsUnsigned ReadAsSigned

section

variable {utcDate utcTime : List UInt8} {numeral numeral' : List UInt8 → ℕ → Prop}
  {yearNumeral yearNumeral' : List UInt8 → ℤ → Prop} {t : DateTime}

theorem Spelled.imp (h : Spelled numeral yearNumeral utcDate utcTime t)
    (hnumeral : ∀ src ∈ windows utcDate utcTime, ∀ v, numeral src v → numeral' src v)
    (hyear : ∀ src ∈ windows utcDate utcTime, ∀ v, yearNumeral src v → yearNumeral' src v) :
    Spelled numeral' yearNumeral' utcDate utcTime t := by
  simp only [windows, List.forall_mem_cons] at hnumeral hyear
  obtain ⟨hday, hmonth, -, hhour, hminute, hsecond, -⟩ := hnumeral
  exact ⟨h.dateField, h.timeField, hday _ h.day, hmonth _ h.month, hyear.2.2.1 _ h.year,
    hhour _ h.hour, hminute _ h.minute, hsecond _ h.second⟩

theorem Spelled.forall_windows (h : Spelled numeral yearNumeral utcDate utcTime t)
    {p : List UInt8 → Prop} (hnumeral : ∀ src v, numeral src v → p src)
    (hyear : ∀ src v, yearNumeral src v → p src) : ∀ src ∈ windows utcDate utcTime, p src := by
  simp only [windows, List.forall_mem_cons]
  exact ⟨hnumeral _ _ h.day, hnumeral _ _ h.month, hyear _ _ h.year, hnumeral _ _ h.hour,
    hnumeral _ _ h.minute, hnumeral _ _ h.second, List.forall_mem_nil _⟩

end

/-! ## Numerals of two characters -/

section

variable {src : List UInt8}

theorem lt_hundred_of_isDecimal {v : ℕ} (h : IsDecimal src v) (hlen : src.length ≤ 2) : v < 100 :=
  h.lt_pow.trans_le (Nat.pow_le_pow_right (by decide) hlen)

theorem fromStrRadix_window {v : ℕ} (hlen : src.length ≤ 2) :
    fromStrRadix 10 MachineInt.u32Max src = some v ↔ ReadAsUnsigned src v := by
  rw [fromStrRadix_ten_eq_some_iff, ReadAsUnsigned]
  refine and_iff_left_of_imp fun h => ?_
  exact (lt_hundred_of_isDecimal h ((length_unsign_le src).trans hlen)).le.trans (by decide)

theorem fromStrRadixSigned_window {v : ℤ} (hlen : src.length ≤ 2) :
    fromStrRadixSigned 10 (-2147483648) 2147483647 src = some v ↔ ReadAsSigned src v := by
  rw [fromStrRadixSigned_ten_eq_some_iff]
  constructor
  · rintro (⟨n, hdecimal, -, rfl⟩ | ⟨digits, n, hsrc, hdecimal, -, rfl⟩)
    · exact .inl ⟨n, hdecimal, rfl⟩
    · exact .inr ⟨digits, hsrc, n, hdecimal, Int.neg_neg _⟩
  · rintro (⟨n, hdecimal, rfl⟩ | ⟨digits, rfl, n, hdecimal, hv⟩)
    · have hlt := lt_hundred_of_isDecimal hdecimal ((length_unsign_le src).trans hlen)
      exact .inl ⟨n, hdecimal, hlt.le.trans (by decide), rfl⟩
    · have hlt := lt_hundred_of_isDecimal hdecimal ((Nat.le_succ _).trans hlen)
      exact .inr ⟨digits, n, rfl, hdecimal, hlt.le.trans (by decide), by omega⟩

/-- The first character of a numeral without a sign. -/
def Unsigned (src : List UInt8) : Prop :=
  src.head? ≠ some '+'.toUInt8 ∧ src.head? ≠ some '-'.toUInt8

theorem unsigned_of_isDecimal {v : ℕ} (h : IsDecimal src v) : Unsigned src :=
  ⟨fun hhead => absurd (h.digit _ (List.mem_of_mem_head? hhead)).1 (by decide),
    fun hhead => absurd (h.digit _ (List.mem_of_mem_head? hhead)).1 (by decide)⟩

theorem Unsigned.readAsUnsigned_iff (h : Unsigned src) {v : ℕ} :
    ReadAsUnsigned src v ↔ IsDecimal src v := by
  rw [ReadAsUnsigned, unsign_of_head?_ne h.1]

theorem Unsigned.readAsSigned_iff (h : Unsigned src) {v : ℤ} :
    ReadAsSigned src v ↔ IsNatural src v := by
  rw [ReadAsSigned, unsign_of_head?_ne h.1]
  refine or_iff_left ?_
  rintro ⟨digits, rfl, -⟩
  exact h.2 rfl

/-- A year of two characters is within a century of 2000. -/
theorem ReadAsSigned.bounds {v : ℤ} (h : ReadAsSigned src v) (hlen : src.length ≤ 2) :
    -100 < v ∧ v < 100 := by
  rcases h with ⟨n, hdecimal, rfl⟩ | ⟨digits, rfl, n, hdecimal, hv⟩
  · have hlt := lt_hundred_of_isDecimal hdecimal ((length_unsign_le src).trans hlen)
    omega
  · have hlt := lt_hundred_of_isDecimal hdecimal ((Nat.le_succ _).trans hlen)
    omega

end

/-! ## What the parser reads -/

namespace Platform

variable {env : Platform} {utcDate utcTime : List UInt8}

theorem decodeFields_take (hd : SixAscii utcDate) (ht : SixAscii utcTime) :
    env.decodeFields (utcDate.take 6) (utcTime.take 6) = some (do
      let day ← fromStrRadix 10 MachineInt.u32Max (window utcDate 0)
      let month ← fromStrRadix 10 MachineInt.u32Max (window utcDate 2)
      let yy ← fromStrRadixSigned 10 (-2147483648) 2147483647 (window utcDate 4)
      let hour ← fromStrRadix 10 MachineInt.u32Max (window utcTime 0)
      let minute ← fromStrRadix 10 MachineInt.u32Max (window utcTime 2)
      let second ← fromStrRadix 10 MachineInt.u32Max (window utcTime 4)
      let date ← env.fromYmdOpt (2000 + yy) month day
      let time ← env.fromHmsOpt hour minute second
      some (date, time)) := by
  have hdigits : ∀ {raw : List UInt8}, SixAscii raw → ∀ {i : ℕ}, i + 2 ≤ 6 →
      digitsU32 (raw.take 6) i = some (fromStrRadix 10 MachineInt.u32Max (window raw i)) :=
    fun h i hi => congrArg _ (h.slice_take hi)
  have hyear : Utf8.slice (utcDate.take 6) 4 6 = some (window utcDate 4) :=
    hd.slice_take (by decide)
  rw [decodeFields, hdigits hd (by decide), hdigits hd (by decide), hyear, hdigits ht (by decide),
    hdigits ht (by decide), hdigits ht (by decide)]
  dsimp only [Option.bind_eq_bind, Option.bind_some]
  -- each value read may be missing, and then nothing is left to read
  rcases fromStrRadix 10 MachineInt.u32Max (window utcDate 0) with _ | day
  · rfl
  rcases fromStrRadix 10 MachineInt.u32Max (window utcDate 2) with _ | month
  · rfl
  rcases fromStrRadixSigned 10 (-2147483648) 2147483647 (window utcDate 4) with _ | yy
  · rfl
  rcases fromStrRadix 10 MachineInt.u32Max (window utcTime 0) with _ | hour
  · rfl
  rcases fromStrRadix 10 MachineInt.u32Max (window utcTime 2) with _ | minute
  · rfl
  rcases fromStrRadix 10 MachineInt.u32Max (window utcTime 4) with _ | second
  · rfl
  dsimp only [Option.bind_some]
  rcases env.fromYmdOpt (2000 + yy) month day with _ | date
  · rfl
  rcases env.fromHmsOpt hour minute second with _ | time
  · rfl
  rfl

/-- **An instant read** is the platform's for the numbers that the fields spell. -/
theorem utcDatetimeFromFields_eq_some_iff {dt : env.NaiveDateTime} :
    env.utcDatetimeFromFields utcDate utcTime = some (some dt) ↔
      ∃ t : DateTime, SpelledWithSigns utcDate utcTime t ∧
        env.fromYmdOpt t.year t.month t.day = some dt.1 ∧
        env.fromHmsOpt t.hour t.minute t.second = some dt.2 := by
  have hlength := @length_windows utcDate utcTime
  simp only [windows, List.forall_mem_cons] at hlength
  obtain ⟨hday, hmonth, hyear, hhour, hminute, hsecond, -⟩ := hlength
  rw [utcDatetimeFromFields_eq]
  split_ifs with hboth
  · rw [decodeFields_take hboth.1 hboth.2, Option.some.injEq]
    simp only [Option.bind_eq_bind, Option.bind_eq_some_iff, fromStrRadix_window hday,
      fromStrRadix_window hmonth, fromStrRadixSigned_window hyear, fromStrRadix_window hhour,
      fromStrRadix_window hminute, fromStrRadix_window hsecond, Option.some.injEq]
    constructor
    · rintro ⟨day, hday, month, hmonth, yy, hyy, hour, hhour, minute, hminute, second, hsecond,
        date, hdate, time, htime, rfl⟩
      refine ⟨⟨2000 + yy, month, day, hour, minute, second⟩, ⟨hboth.1, hboth.2, hday, hmonth, ?_,
        hhour, hminute, hsecond⟩, hdate, htime⟩
      rwa [add_sub_cancel_left]
    · rintro ⟨t, h, hdate, htime⟩
      refine ⟨_, h.day, _, h.month, _, h.year, _, h.hour, _, h.minute, _, h.second, dt.1, ?_, dt.2,
        htime, rfl⟩
      rwa [add_sub_cancel]
  · refine iff_of_false nofun ?_
    rintro ⟨t, h, -⟩
    exact hboth ⟨h.dateField, h.timeField⟩

/-- The Gregorian calendar has an instant for the numbers of a date and a time. -/
theorem Gregorian.exists_iff (h : env.Gregorian) {t : DateTime}
    (hspelled : SpelledWithSigns utcDate utcTime t) :
    (∃ dt : env.NaiveDateTime, env.fromYmdOpt t.year t.month t.day = some dt.1 ∧
      env.fromHmsOpt t.hour t.minute t.second = some dt.2) ↔ t.Real := by
  have hwindow : (window utcDate 4).length ≤ 2 := List.length_take_le _ _
  have hyear := hspelled.year.bounds hwindow
  constructor
  · rintro ⟨⟨date, time⟩, hdate, htime⟩
    exact ⟨(h.date _ _ _ (by omega) (by omega)).mp (by rw [hdate]; rfl),
      (h.time _ _ _).mp (by rw [htime]; rfl)⟩
  · rintro ⟨hreal, htime⟩
    obtain ⟨date, hdate⟩ :=
      Option.isSome_iff_exists.mp ((h.date _ _ _ (by omega) (by omega)).mpr hreal)
    obtain ⟨time, htime⟩ := Option.isSome_iff_exists.mp ((h.time _ _ _).mpr htime)
    exact ⟨(date, time), hdate, htime⟩

end Platform

/-! ## Digits and signs -/

section

variable {utcDate utcTime : List UInt8} {t : DateTime}

theorem SpelledInDigits.unsigned (h : SpelledInDigits utcDate utcTime t) :
    ∀ src ∈ windows utcDate utcTime, Unsigned src :=
  h.forall_windows (fun _ _ => unsigned_of_isDecimal)
    fun _ _ ⟨_, hdecimal, _⟩ => unsigned_of_isDecimal hdecimal

/-- Without a sign, what is read is digits. -/
theorem spelledWithSigns_iff (h : ∀ src ∈ windows utcDate utcTime, Unsigned src) :
    SpelledWithSigns utcDate utcTime t ↔ SpelledInDigits utcDate utcTime t :=
  ⟨fun hspelled => hspelled.imp (fun src hsrc _ => (h src hsrc).readAsUnsigned_iff.mp)
      fun src hsrc _ => (h src hsrc).readAsSigned_iff.mp,
    fun hspelled => hspelled.imp (fun src hsrc _ => (h src hsrc).readAsUnsigned_iff.mpr)
      fun src hsrc _ => (h src hsrc).readAsSigned_iff.mpr⟩

theorem SpelledInDigits.withSigns (h : SpelledInDigits utcDate utcTime t) :
    SpelledWithSigns utcDate utcTime t := (spelledWithSigns_iff h.unsigned).mpr h

theorem SpelledInDigits.unique {t' : DateTime} (h : SpelledInDigits utcDate utcTime t)
    (h' : SpelledInDigits utcDate utcTime t') : t = t' := by
  have hdecimal : ∀ {src : List UInt8} {v v' : ℕ}, IsDecimal src v → IsDecimal src v' → v = v' :=
    fun hv hv' => hv.value.symm.trans hv'.value
  obtain ⟨n, hn, hyear⟩ := h.year
  obtain ⟨n', hn', hyear'⟩ := h'.year
  have hyears := hdecimal hn hn'
  exact DateTime.ext (by omega) (hdecimal h.month h'.month) (hdecimal h.day h'.day)
    (hdecimal h.hour h'.hour) (hdecimal h.minute h'.minute) (hdecimal h.second h'.second)

/-- Digits spell years of one century. -/
theorem SpelledInDigits.year_bounds (h : SpelledInDigits utcDate utcTime t) :
    2000 ≤ t.year ∧ t.year ≤ 2099 := by
  obtain ⟨n, hdecimal, hyear⟩ := h.year
  have hwindow : (window utcDate 4).length ≤ 2 := List.length_take_le _ _
  have hlt := lt_hundred_of_isDecimal hdecimal hwindow
  omega

/-- The seconds of these years. -/
theorem SpelledInDigits.unixSeconds_mem (h : SpelledInDigits utcDate utcTime t) (hreal : t.Real) :
    946684800 ≤ t.unixSeconds ∧ t.unixSeconds ≤ 4102444799 := by
  obtain ⟨hlow, hhigh⟩ := hreal.unixSeconds_bounds h.year_bounds.1 h.year_bounds.2
  have hfirst : (Calendar.daysBefore 2000 - Calendar.daysBefore 1970) * 86400 = 946684800 := by
    decide
  have hlast : (Calendar.daysBefore (2099 + 1) - Calendar.daysBefore 1970) * 86400 =
      4102444800 := by decide
  omega

end

/-- **The fields mean what they say**: they are read as an instant exactly when they are its digits,
as that instant, and it lies in this century. -/
structure FieldsExact (env : Platform) (utcDate utcTime : List UInt8) : Prop where
  accepts : (∃ dt, env.utcDatetimeFromFields utcDate utcTime = some (some dt)) ↔
    ∃ t : DateTime, SpelledInDigits utcDate utcTime t ∧ t.Real
  instant : ∀ dt, env.utcDatetimeFromFields utcDate utcTime = some (some dt) →
    ∀ t : DateTime, SpelledInDigits utcDate utcTime t →
      env.fromYmdOpt t.year t.month t.day = some dt.1 ∧
        env.fromHmsOpt t.hour t.minute t.second = some dt.2 ∧ env.timestamp dt = t.unixSeconds
  century : ∀ dt, env.utcDatetimeFromFields utcDate utcTime = some (some dt) →
    946684800 ≤ env.timestamp dt ∧ env.timestamp dt ≤ 4102444799

/-- An instant with a sign in one window or more. -/
def SignedFields (utcDate utcTime : List UInt8) : Prop :=
  ∃ t : DateTime, SpelledWithSigns utcDate utcTime t ∧ t.Real ∧
    ∃ src ∈ windows utcDate utcTime, ¬Unsigned src

/-- Without a sign in them, what is read are digits. -/
theorem digits_of_read {env : Platform} (henv : env.Gregorian) {utcDate utcTime : List UInt8}
    {dt : env.NaiveDateTime} (hunsigned : ¬SignedFields utcDate utcTime)
    (hdt : env.utcDatetimeFromFields utcDate utcTime = some (some dt)) :
    ∃ t : DateTime, SpelledInDigits utcDate utcTime t ∧ t.Real ∧
      env.fromYmdOpt t.year t.month t.day = some dt.1 ∧
      env.fromHmsOpt t.hour t.minute t.second = some dt.2 := by
  obtain ⟨t, hspelled, hinstant⟩ := Platform.utcDatetimeFromFields_eq_some_iff.mp hdt
  have hreal := (henv.exists_iff hspelled).mp ⟨dt, hinstant⟩
  have hplain : ∀ src ∈ windows utcDate utcTime, Unsigned src := fun src hsrc =>
    by_contra fun hsigned => hunsigned ⟨t, hspelled, hreal, src, hsrc, hsigned⟩
  exact ⟨t, (spelledWithSigns_iff hplain).mp hspelled, hreal, hinstant⟩

/-- **The fields are exact but for signs**, on any platform with the Gregorian calendar. -/
theorem fields_exact_iff_unsigned {env : Platform} (henv : env.Gregorian)
    (utcDate utcTime : List UInt8) :
    FieldsExact env utcDate utcTime ↔ ¬SignedFields utcDate utcTime := by
  constructor
  · rintro h ⟨t, hspelled, hreal, src, hsrc, hsigned⟩
    obtain ⟨dt, hdt⟩ := (henv.exists_iff hspelled).mpr hreal
    obtain ⟨t', hdigits, -⟩ := h.accepts.mp
      ⟨dt, Platform.utcDatetimeFromFields_eq_some_iff.mpr ⟨t, hspelled, hdt⟩⟩
    exact hsigned (hdigits.unsigned src hsrc)
  · intro hunsigned
    have hread := fun dt => @digits_of_read env henv utcDate utcTime dt hunsigned
    refine ⟨⟨fun ⟨dt, hdt⟩ => ?_, fun ⟨t, hdigits, hreal⟩ => ?_⟩, fun dt hdt t hdigits => ?_,
      fun dt hdt => ?_⟩
    · obtain ⟨t, hdigits, hreal, -⟩ := hread dt hdt
      exact ⟨t, hdigits, hreal⟩
    · obtain ⟨dt, hdt⟩ := (henv.exists_iff hdigits.withSigns).mpr hreal
      exact ⟨dt, Platform.utcDatetimeFromFields_eq_some_iff.mpr ⟨t, hdigits.withSigns, hdt⟩⟩
    · obtain ⟨t', hdigits', -, hdate, htime⟩ := hread dt hdt
      obtain rfl := hdigits.unique hdigits'
      exact ⟨hdate, htime, henv.instant t dt.1 dt.2 hdate htime⟩
    · obtain ⟨t, hdigits, hreal, hdate, htime⟩ := hread dt hdt
      rw [henv.instant t dt.1 dt.2 hdate htime]
      exact hdigits.unixSeconds_mem hreal

theorem fields_exact_may_fifteenth :
    FieldsExact Platform.utcCalendar "150526".toUTF8.data.toList "123519".toUTF8.data.toList := by
  refine (fields_exact_iff_unsigned Platform.utcCalendar_gregorian _ _).mpr ?_
  rintro ⟨t, -, -, src, hsrc, hsigned⟩
  have hplain : ∀ src ∈ windows "150526".toUTF8.data.toList "123519".toUTF8.data.toList,
      src.head? ≠ some '+'.toUInt8 ∧ src.head? ≠ some '-'.toUInt8 := by decide +kernel
  exact hsigned (hplain src hsrc)

/-- A year of `-9` is read as 1991. -/
theorem year_before_2000 :
    ¬FieldsExact Platform.utcCalendar "0101-9".toUTF8.data.toList
      "000000".toUTF8.data.toList := by
  intro h
  have hread : Platform.utcCalendar.utcDatetimeFromFields "0101-9".toUTF8.data.toList
      "000000".toUTF8.data.toList = some (some ((1991, 1, 1), (0, 0, 0))) := rfl
  exact absurd (h.century _ hread).1 (by decide)

end GpsNtp
