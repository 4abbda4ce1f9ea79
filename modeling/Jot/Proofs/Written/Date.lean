import Jot.Proofs.Written.Calendar
import Jot.Proofs.Written.Decimal

/-!
# Jot — written dates

A date before it is printed: the numbers of its day and perhaps of a time, and which of the marks
between them are written.  `Date.print` writes it, and `Date.value` is what should be read from
that text.

* `Clock`, `Date` — what can be written;
* `Date.read_print` — what is written is read.
-/

namespace Jot.Written

open Instant

-- ---------------------------------------------------------------------------
-- Dates
-- ---------------------------------------------------------------------------

/-- A time of day behind a date.  Seconds can be left out, and a fraction does not need them. -/
structure Clock where
  separator   : Option Char
  hour        : Nat
  hourColon   : Bool
  minute      : Nat
  minuteColon : Bool
  second      : Option Nat
  /-- The digits behind the point. -/
  fraction    : Option Text
  zone        : Bool
  separated   : ∀ c ∈ separator, (isBlank c || c == 'T') = true
  hour_lt     : hour < 24
  minute_lt   : minute < 60
  second_lt   : ∀ s ∈ second, s < 60
  digits      : ∀ ds ∈ fraction, ds ≠ [] ∧ ∀ c ∈ ds, c.isDigit = true

/-- A date.  No month is longer than 31 days, but the day need not be on the calendar. -/
structure Date where
  year      : Nat
  yearDash  : Bool
  month     : Nat
  monthDash : Bool
  day       : Nat
  clock     : Option Clock
  year_lt   : year < 10000
  month_mem : 1 ≤ month ∧ month ≤ 12
  day_mem   : 1 ≤ day ∧ day ≤ 31

-- ---------------------------------------------------------------------------
-- What is written
-- ---------------------------------------------------------------------------

/-- A mark that can be left out. -/
def mark (c : Char) (written : Bool) : Text := if written then [c] else []

def Clock.secondText (c : Clock) : Text := (c.second.map (padded 2)).getD []

def Clock.fractionText (c : Clock) : Text := (c.fraction.map ('.' :: ·)).getD []

/-- What is written behind the minutes and their colon. -/
def Clock.ending (c : Clock) : Text := c.secondText ++ (c.fractionText ++ mark 'Z' c.zone)

def Clock.print (c : Clock) : Text :=
  c.separator.toList ++ (padded 2 c.hour ++ (mark ':' c.hourColon ++
    (padded 2 c.minute ++ (mark ':' c.minuteColon ++ c.ending))))

/-- The day of a date, with `rest` behind it. -/
def Date.dayBefore (d : Date) (rest : Text) : Text :=
  padded 4 d.year ++ (mark '-' d.yearDash ++
    (padded 2 d.month ++ (mark '-' d.monthDash ++ (padded 2 d.day ++ rest))))

def Date.clockText (d : Date) : Text := (d.clock.map Clock.print).getD []

def Date.print (d : Date) : Text := d.dayBefore d.clockText

-- ---------------------------------------------------------------------------
-- What is meant
-- ---------------------------------------------------------------------------

/-- The fraction as a number of nanoseconds, rounded down. -/
def Clock.nanos (c : Clock) : Nat :=
  (c.fraction.map fun ds => Nat.ofDigitChars 10 ds 0 * 10 ^ 9 / 10 ^ ds.length).getD 0

/-- The moment of a date; what is not written is zero. -/
def Date.instant (d : Date) : Instant where
  year   := d.year
  month  := d.month
  day    := d.day
  hour   := (d.clock.map Clock.hour).getD 0
  minute := (d.clock.map Clock.minute).getD 0
  second := (d.clock.bind Clock.second).getD 0
  nanos  := (d.clock.map Clock.nanos).getD 0

/-- A date is a moment if its day is on the calendar, and else a violation as a whole. -/
def Date.value (d : Date) : DateValue :=
  if isCalendarDay d.year d.month d.day then .instant d.instant
  else .invalid ⟨.date, d.print, some "not a calendar date".toList⟩

-- ---------------------------------------------------------------------------
-- Where the parts end
-- ---------------------------------------------------------------------------

variable {p q : Char → Bool} {c : Char} {n v : Nat} {s t rest : Text}

/-- A number begins with a digit, however it is filled up. -/
theorem startsIn_padded (n v : Nat) (rest : Text) : (padded n v ++ rest).StartsIn Char.isDigit := by
  intro c hc
  obtain ⟨x, ds, hx⟩ := List.exists_cons_of_ne_nil (padded_ne_nil n v)
  obtain rfl : x = c := by simpa [hx] using hc
  exact isDigit_of_mem_padded (hx ▸ List.mem_cons_self)

/-- A number does not begin with a mark. -/
theorem startsIn_padded_ne (hp : ∀ c, c.isDigit = true → p c = false) (n v : Nat) (rest : Text) :
    (padded n v ++ rest).StartsIn fun c => !p c :=
  (startsIn_padded n v rest).mono fun c hc => by rw [hp c hc]; rfl

/-- A mark begins with its character, and if it is left out with nothing. -/
theorem startsIn_mark {b : Bool} (hc : p c = true) : (mark c b).StartsIn p := by
  cases b with
  | false => exact Text.startsIn_nil
  | true => exact Text.startsIn_cons.2 hc

/-- A fraction begins with its point, a zone mark with its letter. -/
theorem Clock.startsIn_fractionText (c : Clock) (hpoint : p '.' = true) (hzone : p 'Z' = true) :
    (c.fractionText ++ mark 'Z' c.zone).StartsIn p := by
  cases hf : c.fraction with
  | none =>
    rw [fractionText, hf]
    exact startsIn_mark hzone
  | some ds =>
    rw [fractionText, hf]
    exact Text.startsIn_cons.2 hpoint

/-- What is written behind the minutes begins with a digit, a point or a letter. -/
theorem Clock.startsIn_ending (c : Clock) (hdigit : ∀ c, c.isDigit = true → p c = true)
    (hpoint : p '.' = true) (hzone : p 'Z' = true) : c.ending.StartsIn p := by
  rw [ending]
  cases hs : c.second with
  | none =>
    rw [secondText, hs]
    exact c.startsIn_fractionText hpoint hzone
  | some v =>
    rw [secondText, hs]
    exact (startsIn_padded 2 v _).mono hdigit

/-- No digit is a mark. -/
theorem ne_of_isDigit (hc : c.isDigit = false) (x : Char) (hx : x.isDigit = true) :
    (x == c) = false := by
  rw [beq_eq_false_iff_ne]
  rintro rfl
  rw [hc] at hx
  contradiction

/-- No digit separates a time from its day. -/
theorem not_separator_of_isDigit (x : Char) (hx : x.isDigit = true) :
    (isBlank x || x == 'T') = false := by
  rw [Bool.eq_false_iff]
  intro h
  rw [Recognizer.isDigit_eq_false_of_separator h] at hx
  contradiction

-- ---------------------------------------------------------------------------
-- Reading
-- ---------------------------------------------------------------------------

/-- Nothing is left out where something else stands. -/
theorem skip_of_startsIn (h : t.StartsIn fun c => !p c) : skip p t = t := by
  cases t with
  | nil => rfl
  | cons c t =>
    have hc : ¬p c = true := by simpa using h
    exact if_neg hc

/-- A character that may be written is left out. -/
theorem skip_toList_append {o : Option Char} (ho : ∀ c ∈ o, p c = true)
    (h : rest.StartsIn fun c => !p c) : skip p (o.toList ++ rest) = rest := by
  cases o with
  | none => exact skip_of_startsIn h
  | some c => exact if_pos (ho c rfl)

/-- A mark that may be written is left out. -/
theorem skip_mark_append {b : Bool} (h : rest.StartsIn fun x => !(x == c)) :
    skip (· == c) (mark c b ++ rest) = rest := by
  cases b with
  | false => exact skip_of_startsIn h
  | true => exact if_pos (beq_self_eq_true c)

/-- Without a digit in front no number is read. -/
theorem digits?_eq_none (hn : 0 < n) (h : t.StartsIn fun c => !c.isDigit) : digits? n t = none := by
  obtain ⟨n, rfl⟩ := Nat.exists_eq_succ_of_ne_zero (Nat.pos_iff_ne_zero.1 hn)
  simp only [digits?]
  refine if_neg ?_
  cases t with
  | nil => simp
  | cons c t =>
    have hc : c.isDigit = false := by simpa using h
    simp [hc]

/-- The day is read, whatever follows, if it is on the calendar. -/
theorem Date.day?_dayBefore (d : Date) (rest : Text) :
    day? (d.dayBefore rest) =
      if isCalendarDay d.year d.month d.day then some ((d.year, d.month, d.day), rest)
      else none := by
  -- each number fits into its width, and no dash is a digit
  have hyear : d.year < 10 ^ 4 := d.year_lt
  have hmonth : d.month < 10 ^ 2 := by have := d.month_mem; omega
  have hday : d.day < 10 ^ 2 := by have := d.day_mem; omega
  have hdash := ne_of_isDigit (c := '-') rfl
  simp only [day?, dayBefore, Option.bind_eq_bind, Option.bind_some,
    digits?_padded_append (n := 4) (by decide) hyear, digits?_padded_append Nat.two_pos hmonth,
    digits?_padded_append Nat.two_pos hday, skip_mark_append (startsIn_padded_ne hdash _ _ _)]

/-- The seconds are read, or nothing where they are left out. -/
theorem Clock.digits?_ending (c : Clock) :
    (digits? 2 c.ending).getD (0, c.ending) =
      (c.second.getD 0, c.fractionText ++ mark 'Z' c.zone) := by
  cases hs : c.second with
  | none =>
    have hending : c.ending = c.fractionText ++ mark 'Z' c.zone := by
      rw [ending, secondText, hs]
      rfl
    rw [hending, digits?_eq_none (by decide) (c.startsIn_fractionText rfl rfl)]
    rfl
  | some v =>
    have hending : c.ending = padded 2 v ++ (c.fractionText ++ mark 'Z' c.zone) := by
      rw [ending, secondText, hs]
      rfl
    have hlt : v < 10 ^ 2 := by have := c.second_lt v hs; omega
    rw [hending, digits?_padded_append Nat.two_pos hlt]
    rfl

/-- Without a point there is no fraction. -/
theorem fraction_of_startsIn (h : t.StartsIn fun c => !(c == '.')) :
    Instant.fraction t = (0, t) := by
  cases t with
  | nil => rfl
  | cons c t =>
    have hc : c ≠ '.' := by simpa using h
    unfold Instant.fraction
    split
    · next heq => exact absurd (List.cons.inj heq).1 hc
    · rfl

/-- The fraction is read up to the zone mark and rounded down. -/
theorem Clock.fraction_fractionText (c : Clock) :
    Instant.fraction (c.fractionText ++ mark 'Z' c.zone) = (c.nanos, mark 'Z' c.zone) := by
  cases hf : c.fraction with
  | none =>
    rw [fractionText, nanos, hf]
    exact fraction_of_startsIn (startsIn_mark rfl)
  | some ds =>
    obtain ⟨hne, hdigits⟩ := c.digits ds hf
    obtain ⟨x, ds', rfl⟩ := List.exists_cons_of_ne_nil hne
    have hx : x.isDigit = true := hdigits x List.mem_cons_self
    -- the digits end where they were written to end, since the zone mark is none
    have hzone : (mark 'Z' c.zone).StartsIn fun c => !c.isDigit := startsIn_mark rfl
    have htake := Text.takeWhile_append_of_startsIn hdigits hzone
    have hdrop := Text.dropWhile_append_of_startsIn hdigits hzone
    rw [fractionText, nanos, hf]
    show Instant.fraction ('.' :: x :: (ds' ++ mark 'Z' c.zone)) = _
    rw [List.cons_append] at htake hdrop
    rw [Instant.fraction, if_pos hx, htake, hdrop, nanosOf_eq hdigits, ofDigits_eq]
    rfl

/-- A time is read, and nothing of it is left but the zone mark. -/
theorem Clock.time?_print (c : Clock) :
    time? (skip (fun c => isBlank c || c == 'T') c.print) =
      some ((c.hour, c.minute, c.second.getD 0, c.nanos), mark 'Z' c.zone) := by
  have hhour : c.hour < 10 ^ 2 := by have := c.hour_lt; omega
  have hminute : c.minute < 10 ^ 2 := by have := c.minute_lt; omega
  have hsecond : c.second.getD 0 < 60 := by
    cases hs : c.second with
    | none => decide
    | some v => exact c.second_lt v hs
  have hcolon := ne_of_isDigit (c := ':') rfl
  -- if the colon is left out, no other one is mistaken for it
  have hending : c.ending.StartsIn fun x => !(x == ':') :=
    c.startsIn_ending (fun x hx => by rw [hcolon x hx]; rfl) rfl rfl
  rw [print, skip_toList_append c.separated (startsIn_padded_ne not_separator_of_isDigit _ _ _)]
  simp only [time?, Option.bind_eq_bind, Option.bind_some, digits?_padded_append Nat.two_pos hhour,
    digits?_padded_append Nat.two_pos hminute, skip_mark_append (startsIn_padded_ne hcolon _ _ _),
    skip_mark_append hending, c.digits?_ending, c.fraction_fractionText]
  exact if_pos ⟨c.hour_lt, c.minute_lt, hsecond⟩

/-- All of a date is read if its day is on the calendar. -/
theorem Date.lead?_print (d : Date) :
    lead? d.print =
      if isCalendarDay d.year d.month d.day then some (d.instant, []) else none := by
  rw [lead?, print, d.day?_dayBefore]
  split
  case isFalse => rfl
  case isTrue =>
    cases hc : d.clock with
    | none =>
      rw [clockText, instant, hc]
      rfl
    | some c =>
      -- the reader of times leaves the zone mark, and here it is passed over
      have hzone : skip (· == 'Z') (mark 'Z' c.zone ++ []) = [] :=
        skip_mark_append Text.startsIn_nil
      rw [List.append_nil] at hzone
      rw [clockText, instant, hc]
      simp [c.time?_print, hzone]

/-- What is written is read, and a day that is not on the calendar is a violation as a whole. -/
theorem Date.read_print (d : Date) : DateValue.read d.print = d.value := by
  rw [DateValue.read, Instant.read?, d.lead?_print, value]
  cases isCalendarDay d.year d.month d.day <;> rfl

end Jot.Written
