import Mathlib.Data.Nat.Find
import Mathlib.Tactic.Common

/-! # Calendar — days since the epoch and civil dates

    The proleptic Gregorian calendar over the integers.  A day is split into its
    year, its month (from zero) and its date, and `makeDay` puts them together
    again. -/

namespace Calendar

/-- The first day of a year. -/
def dayFromYear (year : Int) : Int :=
  365 * (year - 1970) + (year - 1969) / 4 - (year - 1901) / 100 + (year - 1601) / 400

def isLeap (year : Int) : Bool :=
  decide (year % 4 = 0) && (decide (year % 100 ≠ 0) || decide (year % 400 = 0))

/-- The days of a year before a month. -/
def daysBefore (leap : Bool) (month : Nat) : Nat :=
  ([0, 31, 59, 90, 120, 151, 181, 212, 243, 273, 304, 334].getD month 334) +
    if leap && decide (2 ≤ month) then 1 else 0

/-- The day of a date, which may lie outside its month. -/
def makeDay (year : Int) (month : Nat) (date : Int) : Int :=
  dayFromYear year + daysBefore (isLeap year) month + date - 1

/-- A year at most one off: four hundred years have 146097 days. -/
def yearNear (day : Int) : Int := 1970 + 400 * day / 146097

/-- The year of a day. -/
def yearOf (day : Int) : Int :=
  if day < dayFromYear (yearNear day) then yearNear day - 1
  else if dayFromYear (yearNear day + 1) ≤ day then yearNear day + 1
  else yearNear day

/-- The month of a day, January being zero: the last one that starts by then. -/
def monthOf (day : Int) : Nat :=
  Nat.findGreatest (fun month =>
    dayFromYear (yearOf day) + daysBefore (isLeap (yearOf day)) month ≤ day) 11

/-- The day of the month. -/
def dateOf (day : Int) : Int :=
  day - dayFromYear (yearOf day) - daysBefore (isLeap (yearOf day)) (monthOf day) + 1

section Years

variable {day year : Int}

theorem dayFromYear_succ (year : Int) :
    dayFromYear year + 365 ≤ dayFromYear (year + 1) ∧
      dayFromYear (year + 1) ≤ dayFromYear year + 366 := by
  simp only [dayFromYear]
  omega

/-- A year that starts later starts a whole number of years later. -/
theorem dayFromYear_add (year : Int) (n : Nat) :
    dayFromYear year + 365 * n ≤ dayFromYear (year + n) := by
  induction n with
  | zero => simp
  | succ n ih =>
      have hsucc := (dayFromYear_succ (year + n)).1
      have hassoc : year + ((n + 1 : Nat) : Int) = year + n + 1 := by omega
      rw [hassoc]
      omega

theorem dayFromYear_mono {a b : Int} (h : a ≤ b) : dayFromYear a ≤ dayFromYear b := by
  obtain ⟨n, rfl⟩ := Int.le.dest h
  have hadd := dayFromYear_add a n
  omega

/-- **THE YEAR OF A DAY** starts by then, and the next one starts later. -/
theorem yearOf_bounds (day : Int) :
    dayFromYear (yearOf day) ≤ day ∧ day < dayFromYear (yearOf day + 1) := by
  -- the estimate is off by one year at most, either way
  have hlow : dayFromYear (yearNear day - 1) ≤ day := by
    simp only [dayFromYear, yearNear]
    omega
  have hhigh : day < dayFromYear (yearNear day + 1 + 1) := by
    simp only [dayFromYear, yearNear]
    omega
  rw [yearOf]
  split
  · next hbefore =>
      refine ⟨hlow, ?_⟩
      rw [Int.sub_add_cancel]
      exact hbefore
  · next hafter =>
      split
      · next hnext => exact ⟨hnext, hhigh⟩
      · next hthis => exact ⟨Int.not_lt.mp hafter, Int.not_le.mp hthis⟩

/-- Years are told apart by their first days. -/
theorem le_yearOf_iff : year ≤ yearOf day ↔ dayFromYear year ≤ day := by
  obtain ⟨hlow, hhigh⟩ := yearOf_bounds day
  constructor
  · intro h
    exact Int.le_trans (dayFromYear_mono h) hlow
  · intro h
    by_contra hlt
    have hmono := dayFromYear_mono (by omega : yearOf day + 1 ≤ year)
    omega

end Years

section Dates

variable {day : Int}

theorem monthOf_le (day : Int) : monthOf day ≤ 11 := Nat.findGreatest_le 11

/-- The month of a day starts by then. -/
theorem monthOf_starts (day : Int) :
    dayFromYear (yearOf day) + daysBefore (isLeap (yearOf day)) (monthOf day) ≤ day := by
  have hfirst : dayFromYear (yearOf day) + daysBefore (isLeap (yearOf day)) 0 ≤ day := by
    have hlow := (yearOf_bounds day).1
    simpa [daysBefore] using hlow
  exact Nat.findGreatest_spec (P := fun month =>
    dayFromYear (yearOf day) + daysBefore (isLeap (yearOf day)) month ≤ day) (Nat.zero_le 11) hfirst

theorem dateOf_pos (day : Int) : 1 ≤ dateOf day := by
  have hstarts := monthOf_starts day
  rw [dateOf]
  omega

/-- **ROUND TRIP**: a day is put together again from its date. -/
theorem makeDay_civil (day : Int) : makeDay (yearOf day) (monthOf day) (dateOf day) = day := by
  rw [makeDay, dateOf]
  omega

/-- So that a date belongs to one day only. -/
theorem eq_of_civil {a b : Int} (hyear : yearOf a = yearOf b) (hmonth : monthOf a = monthOf b)
    (hdate : dateOf a = dateOf b) : a = b := by
  rw [← makeDay_civil a, ← makeDay_civil b, hyear, hmonth, hdate]

theorem daysBefore_le (leap : Bool) {month : Nat} (h : month ≤ 11) : daysBefore leap month ≤ 335 := by
  have hall : ∀ m ∈ List.range 12, daysBefore leap m ≤ 335 := by cases leap <;> decide
  exact hall month (List.mem_range.mpr (Nat.lt_succ_of_le h))

/-- No month is longer than the rest of its year. -/
theorem dateOf_le (day : Int) : dateOf day ≤ 366 := by
  -- a month starts no earlier than its year and ends no later
  have hhigh := (yearOf_bounds day).2
  have hsucc := (dayFromYear_succ (yearOf day)).2
  rw [dateOf]
  omega

/-- A date that is put into another year falls into it or right after it. -/
theorem makeDay_bounds (year day : Int) :
    dayFromYear year ≤ makeDay year (monthOf day) (dateOf day) ∧
      makeDay year (monthOf day) (dateOf day) ≤ dayFromYear year + 700 := by
  have hpos := dateOf_pos day
  have hdate := dateOf_le day
  have hmonth := daysBefore_le (isLeap year) (monthOf_le day)
  rw [makeDay]
  omega

end Dates

example : (yearOf 19782, monthOf 19782, dateOf 19782) = (2024, 1, 29) := by decide +kernel

end Calendar
