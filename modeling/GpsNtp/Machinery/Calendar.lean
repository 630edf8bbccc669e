import Mathlib.Data.Int.Notation
import Mathlib.Data.Nat.Find
import Mathlib.Order.Monotone.Basic

/-!
# Machinery/Calendar — the proleptic Gregorian calendar

    ── year ──┬── year + 1 ──┬──          daysBefore: days from 0001-01-01 on
       365    │     366      │

Dates, instants of UTC without leap seconds, and the seconds from 1970 on at which they fall.  An
instant lies between the first seconds of its year and of the next (`unixSeconds_bounds`), and every
second is that of one instant, `ofUnixSeconds` of it.
-/

namespace Calendar

/-! ## Dates -/

def IsLeap (year : ℤ) : Prop := 4 ∣ year ∧ (¬100 ∣ year ∨ 400 ∣ year)

instance (year : ℤ) : Decidable (IsLeap year) := inferInstanceAs (Decidable (_ ∧ _))

def monthLength (year : ℤ) (month : ℕ) : ℕ :=
  if month = 2 then if IsLeap year then 29 else 28
  else if month = 4 ∨ month = 6 ∨ month = 9 ∨ month = 11 then 30
  else 31

def yearLength (year : ℤ) : ℕ := if IsLeap year then 366 else 365

/-- **A date of the calendar.** -/
structure RealDate (year : ℤ) (month day : ℕ) : Prop where
  monthRange : 1 ≤ month ∧ month ≤ 12
  dayRange : 1 ≤ day ∧ day ≤ monthLength year month

instance (year : ℤ) (month day : ℕ) : Decidable (RealDate year month day) :=
  decidable_of_iff ((1 ≤ month ∧ month ≤ 12) ∧ 1 ≤ day ∧ day ≤ monthLength year month)
    ⟨fun h => ⟨h.1, h.2⟩, fun h => ⟨h.monthRange, h.dayRange⟩⟩

/-- A year, a month, a day and a time of day. -/
@[ext] structure DateTime where
  year : ℤ
  month : ℕ
  day : ℕ
  hour : ℕ
  minute : ℕ
  second : ℕ

/-- **An instant of the calendar.** -/
structure DateTime.Real (t : DateTime) : Prop where
  date : RealDate t.year t.month t.day
  time : t.hour < 24 ∧ t.minute < 60 ∧ t.second < 60

/-! ## Counting days -/

/-- The days from 0001-01-01 to the first of a year. -/
def daysBefore (year : ℤ) : ℤ :=
  365 * (year - 1) + (year - 1) / 4 - (year - 1) / 100 + (year - 1) / 400

/-- The days of a year up to the end of a month. -/
def daysThrough (year : ℤ) : ℕ → ℕ
  | 0 => 0
  | month + 1 => daysThrough year month + monthLength year (month + 1)

/-- A year is as long as the count of days says. -/
theorem daysBefore_succ (year : ℤ) :
    daysBefore (year + 1) = daysBefore year + yearLength year := by
  rw [daysBefore, daysBefore, yearLength]
  split_ifs with hleap
  · obtain ⟨hfour, hhundred⟩ := hleap
    omega
  · rw [IsLeap] at hleap
    omega

theorem daysBefore_mono {year year' : ℤ} (h : year ≤ year') :
    daysBefore year ≤ daysBefore year' := by
  rw [daysBefore, daysBefore]
  omega

theorem daysThrough_monotone (year : ℤ) : Monotone (daysThrough year) :=
  monotone_nat_of_le_succ fun _ => Nat.le_add_right _ _

theorem daysThrough_twelve (year : ℤ) : daysThrough year 12 = yearLength year := by
  by_cases hleap : IsLeap year
  · simp [daysThrough, monthLength, yearLength, hleap]
  · simp [daysThrough, monthLength, yearLength, hleap]

/-- A date lies in its year. -/
theorem RealDate.daysThrough_add_le {year : ℤ} {month day : ℕ} (h : RealDate year month day) :
    daysThrough year (month - 1) + day ≤ yearLength year := by
  obtain ⟨⟨hfirst, hlast⟩, -, hday⟩ := h
  obtain ⟨m, rfl⟩ := Nat.exists_eq_add_of_le' hfirst
  calc daysThrough year m + day ≤ daysThrough year m + monthLength year (m + 1) :=
        Nat.add_le_add_left hday _
    _ ≤ daysThrough year 12 := daysThrough_monotone year hlast
    _ = yearLength year := daysThrough_twelve year

/-! ## Finding the date -/

/-- The year that a day counted from 0001-01-01 is in: the mean year's guess, put right. -/
def yearOf (n : ℤ) : ℤ :=
  let guess := n * 400 / 146097 + 1
  if n < daysBefore guess then guess - 1
  else if n < daysBefore (guess + 1) then guess
  else guess + 1

/-- **Every day is in a year.** -/
theorem yearOf_spec (n : ℤ) : daysBefore (yearOf n) ≤ n ∧ n < daysBefore (yearOf n + 1) := by
  dsimp only [yearOf]
  generalize hguess : n * 400 / 146097 + 1 = guess
  split_ifs with hbefore hin
  · refine ⟨?_, by rwa [Int.sub_add_cancel]⟩
    rw [daysBefore]
    omega
  · exact ⟨Int.not_lt.mp hbefore, hin⟩
  · refine ⟨Int.not_lt.mp hin, ?_⟩
    rw [daysBefore]
    omega

theorem eq_yearOf {year n : ℤ} (hlow : daysBefore year ≤ n) (hhigh : n < daysBefore (year + 1)) :
    year = yearOf n := by
  obtain ⟨hlow', hhigh'⟩ := yearOf_spec n
  rcases Int.lt_trichotomy year (yearOf n) with hlt | heq | hgt
  · have hmono := @daysBefore_mono (year + 1) (yearOf n) hlt
    omega
  · exact heq
  · have hmono := @daysBefore_mono (yearOf n + 1) year hgt
    omega

/-- The month of a day counted from the first of its year. -/
def monthOf (year : ℤ) (k : ℕ) : ℕ := Nat.findGreatest (fun m => daysThrough year m ≤ k) 11 + 1

theorem monthOf_spec {year : ℤ} {k : ℕ} (hk : k < yearLength year) :
    (1 ≤ monthOf year k ∧ monthOf year k ≤ 12) ∧ daysThrough year (monthOf year k - 1) ≤ k ∧
      k < daysThrough year (monthOf year k) := by
  have hle := Nat.findGreatest_le (P := fun m => daysThrough year m ≤ k) 11
  refine ⟨⟨Nat.succ_pos _, Nat.succ_le_succ hle⟩, ?_, ?_⟩
  · exact Nat.findGreatest_spec (P := fun m => daysThrough year m ≤ k) (Nat.zero_le 11)
      (Nat.zero_le k)
  · rcases Nat.lt_or_ge (monthOf year k) 12 with hlt | hge
    · exact Nat.not_le.mp (Nat.findGreatest_is_greatest (P := fun m => daysThrough year m ≤ k)
        (Nat.lt_succ_self _) (Nat.le_of_lt_succ hlt))
    · rw [show monthOf year k = 12 from Nat.le_antisymm (Nat.succ_le_succ hle) hge,
        daysThrough_twelve]
      exact hk

theorem eq_monthOf {year : ℤ} {month k : ℕ} (hmonth : 1 ≤ month) (hk : k < yearLength year)
    (hlow : daysThrough year (month - 1) ≤ k) (hhigh : k < daysThrough year month) :
    month = monthOf year k := by
  obtain ⟨⟨hfirst, -⟩, hlow', hhigh'⟩ := monthOf_spec hk
  rcases Nat.lt_trichotomy month (monthOf year k) with hlt | heq | hgt
  · have hmono := @daysThrough_monotone year month (monthOf year k - 1) (by omega)
    omega
  · exact heq
  · have hmono := @daysThrough_monotone year (monthOf year k) (month - 1) (by omega)
    omega

/-! ## Counting seconds -/

namespace DateTime

/-- The seconds from 1970 on. -/
def unixSeconds (t : DateTime) : ℤ :=
  (daysBefore t.year - daysBefore 1970 + daysThrough t.year (t.month - 1) + (t.day - 1)) * 86400 +
    t.hour * 3600 + t.minute * 60 + t.second

/-- **An instant lies in its years.** -/
theorem Real.unixSeconds_bounds {t : DateTime} (h : t.Real) {first last : ℤ}
    (hfirst : first ≤ t.year) (hlast : t.year ≤ last) :
    (daysBefore first - daysBefore 1970) * 86400 ≤ t.unixSeconds ∧
      t.unixSeconds < (daysBefore (last + 1) - daysBefore 1970) * 86400 := by
  have hbefore := daysBefore_mono hfirst
  have hafter := daysBefore_mono (Int.add_le_add_right hlast 1)
  have hyear := h.date.daysThrough_add_le
  have hsucc := daysBefore_succ t.year
  obtain ⟨⟨-, hday, -⟩, hhour, hminute, hsecond⟩ := h
  rw [unixSeconds]
  constructor <;> omega

/-- The instant of a second. -/
def ofUnixSeconds (u : ℤ) : DateTime :=
  let days := u / 86400 + daysBefore 1970
  let year := yearOf days
  let dayOfYear := (days - daysBefore year).toNat
  let month := monthOf year dayOfYear
  let time := (u % 86400).toNat
  { year, month
    day := dayOfYear - daysThrough year (month - 1) + 1
    hour := time / 3600
    minute := time / 60 % 60
    second := time % 60 }

/-- **Every second is that of an instant.** -/
theorem ofUnixSeconds_spec (u : ℤ) : (ofUnixSeconds u).Real ∧ (ofUnixSeconds u).unixSeconds = u := by
  have hdivision := Int.mul_ediv_add_emod u 86400
  have hnonneg := Int.emod_nonneg u (by decide : (86400 : ℤ) ≠ 0)
  have hlt := Int.emod_lt_of_pos u (by decide : (0 : ℤ) < 86400)
  dsimp only [ofUnixSeconds]
  generalize hdays : u / 86400 + daysBefore 1970 = days
  obtain ⟨hlow, hhigh⟩ := yearOf_spec days
  rw [daysBefore_succ] at hhigh
  generalize yearOf days = year at hlow hhigh ⊢
  obtain ⟨hmonth, hfirst, hlast⟩ :=
    @monthOf_spec year (days - daysBefore year).toNat (by omega)
  generalize monthOf year (days - daysBefore year).toNat = month at hmonth hfirst hlast ⊢
  obtain ⟨m, rfl⟩ := Nat.exists_eq_add_of_le' hmonth.1
  rw [daysThrough] at hlast
  rw [Nat.add_sub_cancel] at hfirst
  refine ⟨⟨⟨hmonth, Nat.succ_pos _, ?_⟩, ?_⟩, ?_⟩
  · dsimp only
    rw [Nat.add_sub_cancel]
    omega
  · dsimp only
    omega
  · dsimp only [unixSeconds]
    rw [Nat.add_sub_cancel]
    omega

/-- The days of an instant's seconds. -/
theorem Real.days_unixSeconds {t : DateTime} (h : t.Real) :
    t.unixSeconds / 86400 + daysBefore 1970 =
      daysBefore t.year + daysThrough t.year (t.month - 1) + (t.day - 1) := by
  obtain ⟨-, hhour, hminute, hsecond⟩ := h
  rw [unixSeconds]
  omega

/-- The time of day of an instant's seconds. -/
theorem Real.time_unixSeconds {t : DateTime} (h : t.Real) :
    (t.unixSeconds % 86400).toNat = t.hour * 3600 + t.minute * 60 + t.second := by
  obtain ⟨-, hhour, hminute, hsecond⟩ := h
  rw [unixSeconds]
  omega

/-- **The calendar has one instant a second.** -/
theorem Real.ofUnixSeconds_unixSeconds {t : DateTime} (h : t.Real) :
    ofUnixSeconds t.unixSeconds = t := by
  have hdays := h.days_unixSeconds
  have htime := h.time_unixSeconds
  have hyearLength := h.date.daysThrough_add_le
  obtain ⟨⟨hmonth, hday, hlength⟩, hhour, hminute, hsecond⟩ := h
  have hyear : t.year = yearOf (t.unixSeconds / 86400 + daysBefore 1970) := by
    refine eq_yearOf ?_ ?_
    · omega
    · rw [daysBefore_succ]
      omega
  have hdayOfYear : (t.unixSeconds / 86400 + daysBefore 1970 - daysBefore t.year).toNat =
      daysThrough t.year (t.month - 1) + (t.day - 1) := by omega
  have hmonthOf : t.month = monthOf t.year (daysThrough t.year (t.month - 1) + (t.day - 1)) := by
    refine eq_monthOf hmonth.1 (by omega) (by omega) ?_
    obtain ⟨m, hm⟩ := Nat.exists_eq_add_of_le' hmonth.1
    rw [hm, Nat.add_sub_cancel, daysThrough, ← hm]
    omega
  dsimp only [ofUnixSeconds]
  rw [← hyear, hdayOfYear, ← hmonthOf, htime]
  refine DateTime.ext rfl rfl ?_ ?_ ?_ ?_
  · dsimp only
    omega
  · dsimp only
    omega
  · dsimp only
    omega
  · dsimp only
    omega

end DateTime

end Calendar
