import Jot.Instant
import Mathlib.Tactic.DeprecateTo
import Mathlib.Tactic.IntervalCases

/-!
# Jot — the calendar

Leap years and the lengths of months are those of the dates in `Std.Time`, which is a calendar of
its own: its years are integers and its months a table.  So the days that a date may have are known
without looking at the reader of dates.  (`Std.Time` comes with the second import.)

* `isLeap_eq`, `days_eq` — leap years and the lengths of months;
* `isCalendarDay_iff` — a day is on the calendar if there is such a date.
-/

namespace Jot

open Std.Time

variable {year month day : Nat}

/-- The leap years of both calendars are the same. -/
theorem isLeap_eq (year : Nat) : (Year.Offset.ofInt year).isLeap = isLeapYear year := by
  -- from year zero on, the remainders of integers are those of natural numbers
  have hfour : (year : Int).tmod 4 = ((year % 4 : Nat) : Int) := rfl
  have hhundred : (year : Int).tmod 100 = ((year % 100 : Nat) : Int) := rfl
  have hcycle : (year : Int).tmod 400 = ((year % 400 : Nat) : Int) := rfl
  show decide ((year : Int).tmod 4 = 0 ∧
    ((year : Int).tmod 100 ≠ 0 ∨ (year : Int).tmod 400 = 0)) = _
  rw [hfour, hhundred, hcycle, isLeapYear, Bool.eq_iff_iff]
  simp only [decide_eq_true_eq, Bool.and_eq_true, Bool.or_eq_true, beq_iff_eq, bne_iff_ne]
  omega

/-- The months of both calendars have the same lengths. -/
theorem days_eq (year : Nat) (month : Month.Ordinal) :
    (month.days (isLeapYear year)).val = daysInMonth year month.val.toNat := by
  obtain ⟨m, hlo, hhi⟩ := month
  -- the other calendar looks the length up in a table, so each month is compared by itself
  interval_cases m <;> cases hleap : isLeapYear year <;> simp [daysInMonth, hleap] <;> rfl

/-- No month has more than thirty-one days. -/
theorem daysInMonth_le : daysInMonth year month ≤ 31 := by
  unfold daysInMonth
  split_ifs <;> omega

/-- The day is on the calendar if there is a date in `Std.Time` with this year, month and day. -/
theorem isCalendarDay_iff :
    isCalendarDay year month day = true ↔
      ∃ date : PlainDate, date.year.toInt = year ∧ date.month.val = month ∧
        date.day.val = day := by
  simp only [isCalendarDay, Bool.and_eq_true, decide_eq_true_eq]
  constructor
  · rintro ⟨⟨⟨hmonth, hmonth'⟩, hday⟩, hday'⟩
    have hdays : daysInMonth year month ≤ 31 := daysInMonth_le
    let m : Month.Ordinal := ⟨month, by omega, by omega⟩
    let d : Day.Ordinal := ⟨day, by omega, by omega⟩
    have hvalid : d.val ≤ (m.days (Year.Offset.ofInt year).isLeap).val := by
      rw [isLeap_eq, days_eq]
      exact Int.ofNat_le.2 hday'
    exact ⟨⟨Year.Offset.ofInt year, m, d, hvalid⟩, rfl, rfl, rfl⟩
  · rintro ⟨date, hyear, hmonth, hday⟩
    have hleap : date.year.isLeap = isLeapYear year := by
      rw [← isLeap_eq]
      exact congrArg Year.Offset.isLeap hyear
    have hvalid : date.day.val ≤ (date.month.days date.year.isLeap).val := date.valid
    rw [hleap, days_eq, hmonth, hday, Int.toNat_natCast] at hvalid
    obtain ⟨hlo, hhi⟩ := date.month.property
    obtain ⟨hpos, -⟩ := date.day.property
    rw [hmonth] at hlo hhi
    rw [hday] at hpos
    exact ⟨⟨⟨by omega, by omega⟩, by omega⟩, Int.ofNat_le.1 hvalid⟩

end Jot
