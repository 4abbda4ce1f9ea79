import Jot.Violation
import Jot.Text.Blank

/-!
# Jot — dates

A date is written with four digits for the year and two for the month and the day, perhaps
followed by a time; dashes and colons may be left out.  Dates are read as universal time on the
proleptic Gregorian calendar, and the fraction of a second is cut after nine digits.
-/

namespace Jot

/-- A moment of universal time, to the nanosecond. -/
structure Instant where
  year : Nat
  month : Nat
  day : Nat
  hour : Nat
  minute : Nat
  second : Nat
  nanos : Nat
deriving DecidableEq

-- ---------------------------------------------------------------------------
-- The calendar
-- ---------------------------------------------------------------------------

/-- Leap years of the Gregorian calendar. -/
def isLeapYear (year : Nat) : Bool :=
  year % 4 == 0 && (year % 100 != 0 || year % 400 == 0)

/-- The number of days of a month. -/
def daysInMonth (year month : Nat) : Nat :=
  if month = 2 then (if isLeapYear year then 29 else 28)
  else if month = 4 ∨ month = 6 ∨ month = 9 ∨ month = 11 then 30
  else 31

/-- Whether a day occurs on the calendar. -/
def isCalendarDay (year month day : Nat) : Bool :=
  decide (1 ≤ month) && decide (month ≤ 12) && decide (1 ≤ day) &&
    decide (day ≤ daysInMonth year month)

-- ---------------------------------------------------------------------------
-- Reading
-- ---------------------------------------------------------------------------

namespace Instant

/-- The number that decimal digits spell. -/
def ofDigits (digits : Text) : Nat :=
  digits.foldl (fun n c => 10 * n + (c.toNat - 48)) 0

/-- Reads exactly `n` digits; the second component is what follows them. -/
def digits? (n : Nat) (t : Text) : Option (Nat × Text) :=
  let lead := t.take n
  if lead.length = n ∧ lead.all Char.isDigit then some (ofDigits lead, t.drop n) else none

/-- Leaves out one character of a class, if it comes first. -/
def skip (p : Char → Bool) : Text → Text
  | c :: rest => if p c then rest else c :: rest
  | [] => []

/-- A day of the calendar. -/
def day? (t : Text) : Option ((Nat × Nat × Nat) × Text) := do
  let (year, t) ← digits? 4 t
  let (month, t) ← digits? 2 (skip (· == '-') t)
  let (day, t) ← digits? 2 (skip (· == '-') t)
  if isCalendarDay year month day then some ((year, month, day), t) else none

/-- The nanoseconds that the digits behind a decimal point stand for. -/
def nanosOf (digits : Text) : Nat :=
  ofDigits ((digits ++ List.replicate 9 '0').take 9)

/-- A fraction of a second in nanoseconds; zero when none is written. -/
def fraction : Text → Nat × Text
  | '.' :: c :: rest =>
    if c.isDigit then
      (nanosOf ((c :: rest).takeWhile Char.isDigit), (c :: rest).dropWhile Char.isDigit)
    else (0, '.' :: c :: rest)
  | t => (0, t)

/-- A time of day: hours, minutes, seconds and nanoseconds. -/
def time? (t : Text) : Option ((Nat × Nat × Nat × Nat) × Text) := do
  let (hour, t) ← digits? 2 t
  let (minute, t) ← digits? 2 (skip (· == ':') t)
  let t := skip (· == ':') t
  let (second, t) := (digits? 2 t).getD (0, t)
  let (nanos, t) := fraction t
  if hour < 24 ∧ minute < 60 ∧ second < 60 then some ((hour, minute, second, nanos), t)
  else none

/-- A date and, as far as it can be read, a time; the second component is what follows. -/
def lead? (t : Text) : Option (Instant × Text) := do
  let ((year, month, day), rest) ← day? t
  let ((hour, minute, second, nanos), rest) :=
    (time? (skip (fun c => isBlank c || c == 'T') rest)).getD ((0, 0, 0, 0), rest)
  some (⟨year, month, day, hour, minute, second, nanos⟩, skip (· == 'Z') rest)

/-- The moment that the whole of a text spells. -/
def read? (t : Text) : Option Instant :=
  match lead? t with
  | some (i, []) => some i
  | _ => none

-- ---------------------------------------------------------------------------
-- Writing
-- ---------------------------------------------------------------------------

/-- `n` in decimal, with at least `width` digits. -/
def padded (width n : Nat) : Text :=
  let digits := Text.ofNat n
  List.replicate (width - digits.length) '0' ++ digits

/-- The fraction of a second: nothing, or the shortest of three, six or nine digits that is
exact. -/
def renderFraction (nanos : Nat) : Text :=
  if nanos = 0 then []
  else if nanos % 1000000 = 0 then '.' :: padded 3 (nanos / 1000000)
  else if nanos % 1000 = 0 then '.' :: padded 6 (nanos / 1000)
  else '.' :: padded 9 nanos

/-- The canonical spelling. -/
def render (i : Instant) : Text :=
  padded 4 i.year ++ '-' :: padded 2 i.month ++ '-' :: padded 2 i.day ++
    'T' :: padded 2 i.hour ++ ':' :: padded 2 i.minute ++ ':' :: padded 2 i.second ++
    renderFraction i.nanos ++ ['Z']

end Instant

/-- What the text of a date stands for. -/
inductive DateValue where
  | instant (moment : Instant)
  | invalid (violation : Violation)
deriving DecidableEq

namespace DateValue

/-- Reads a date; a text that spells none is a violation as a whole. -/
def read (t : Text) : DateValue :=
  match Instant.read? t with
  | some i => .instant i
  | none => .invalid ((Violation.of .date t).withMessage "not a calendar date".toList)

/-- The moment, if there is one. -/
def instant? : DateValue → Option Instant
  | instant i => some i
  | invalid _ => none

end DateValue

end Jot
