import Mathlib.Data.List.Basic
import Mathlib.Data.List.TakeWhile
import Jot.Proofs.Written.Date

/-!
# Jot — the date pattern

The pattern of the lexer takes a text as a whole exactly if the text is a written date, so every
date token is read as the date that is written there.

* `Recognizer.takes_twoDigits` — fields of two digits, in front of any text;
* `Date.dateTime_print`, `Date.only_dateTime` — written dates are what the pattern takes;
* `dateTime_reads` — and each is read as written.

Which days are on the calendar is `isCalendarDay_iff`, which does not look at the reader.
-/

namespace Jot

open Instant (padded ofDigits)

-- ---------------------------------------------------------------------------
-- Taking digits
-- ---------------------------------------------------------------------------

namespace Recognizer

variable {r s : Recognizer} {v w t rest : Text} {p : Nat → Nat → Bool} {n m : Nat} {c : Char}

/-- A character of a class that may be written is taken. -/
theorem takes_toList {o : Option Char} {q : Char → Bool} (ho : ∀ c ∈ o, q c = true)
    (h : rest.StartsIn fun c => !q c) : Takes (optional (one q)) o.toList rest := by
  cases o with
  | none => exact takes_optional_nil (one_eq_none h)
  | some c => exact takes_optional (if_pos (ho c rfl))

/-- A mark that may be written is taken. -/
theorem takes_mark (b : Bool) (h : rest.StartsIn fun x => !(x == c)) :
    Takes (optional (char c)) (Written.mark c b) rest := by
  cases b with
  | false => exact takes_optional_nil (one_eq_none h)
  | true => exact takes_optional (if_pos (beq_self_eq_true c))

theorem takes_many1_digits (hne : v ≠ []) (hv : ∀ c ∈ v, c.isDigit = true)
    (h : rest.StartsIn fun c => !c.isDigit) : Takes (many1 Char.isDigit) v rest := by
  rw [Takes, many1_eq_some_iff, Text.takeWhile_append_of_startsIn hv h]
  exact ⟨List.length_pos_iff.2 hne, rfl⟩

/-- A fixed number of digits is taken, whatever follows. -/
theorem takes_times_digit (hlen : v.length = m) (hv : ∀ c ∈ v, c.isDigit = true) (rest : Text) :
    Takes (times m (one Char.isDigit)) v rest := by
  subst hlen
  -- by induction on the digits, one round of the recogniser for each
  induction v with
  | nil => rfl
  | cons c v ih =>
    obtain ⟨hc, hv⟩ := List.forall_mem_cons.1 hv
    have hhead : Takes (one Char.isDigit) [c] (v ++ rest) := if_pos hc
    exact takes_both hhead (ih hv)

/-- Two digits, taken apart. -/
theorem exists_padded_two (hn : n < 100) :
    ∃ a b : Char, padded 2 n = [a, b] ∧ a.isDigit = true ∧ b.isDigit = true ∧
      a.toNat - 48 = n / 10 ∧ b.toNat - 48 = n % 10 := by
  obtain ⟨a, b, h⟩ := List.length_eq_two.1 (Instant.length_padded Nat.two_pos hn)
  have ha : a.isDigit = true := Instant.isDigit_of_mem_padded (h ▸ List.mem_cons_self)
  have hb : b.isDigit = true :=
    Instant.isDigit_of_mem_padded (h ▸ List.mem_cons_of_mem a List.mem_cons_self)
  have hvalue : ofDigits [a, b] = n := h ▸ Instant.ofDigits_padded 2 n
  have hvalue : 10 * (a.toNat - 48) + (b.toNat - 48) = n := by simpa [ofDigits] using hvalue
  have ha' := (isDigit_iff a).1 ha
  have hb' := (isDigit_iff b).1 hb
  exact ⟨a, b, h, ha, hb, by omega, by omega⟩

/-- A field of two digits is taken if its number is one of those that the field is for. -/
theorem takes_twoDigits (hn : n < 100) (hp : p (n / 10) (n % 10) = true) (rest : Text) :
    Takes (twoDigits p) (padded 2 n) rest := by
  obtain ⟨a, b, h, ha, hb, hdiv, hmod⟩ := exists_padded_two hn
  rw [h]
  exact if_pos (by simp only [ha, hb, hdiv, hmod, hp, Bool.and_self])

-- ---------------------------------------------------------------------------
-- What has been taken
-- ---------------------------------------------------------------------------

/-- The recogniser takes nothing but texts with the property `S`. -/
def Only (r : Recognizer) (S : Text → Prop) : Prop :=
  ∀ t n, r t = some n → ∃ v, S v ∧ t = v ++ t.drop n

/-- A sequence takes a text of the first sort and one of the second. -/
theorem only_both {S T : Text → Prop} (hr : Only r S) (hs : Only s T) :
    Only (both r s) fun u => ∃ v, S v ∧ ∃ w, T w ∧ u = v ++ w := by
  intro t n h
  obtain ⟨m, hm, h⟩ := Option.bind_eq_some_iff.1 h
  obtain ⟨k, hk, rfl⟩ := Option.map_eq_some_iff.1 h
  -- the text is cut where the first recogniser ends
  obtain ⟨v, hv, ht⟩ := hr t m hm
  obtain ⟨w, hw, hrest⟩ := hs _ k hk
  rw [List.drop_drop] at hrest
  refine ⟨v ++ w, ⟨v, hv, w, hw, rfl⟩, ?_⟩
  rw [List.append_assoc, ← hrest]
  exact ht

/-- An option takes nothing, or what its recogniser does. -/
theorem only_optional {S : Text → Prop} (hr : Only r S) :
    Only (optional r) fun u => u = [] ∨ S u := by
  intro t n h
  cases hn : r t with
  | none =>
    rw [optional, hn] at h
    cases h
    exact ⟨[], .inl rfl, rfl⟩
  | some m =>
    rw [optional, hn] at h
    cases h
    obtain ⟨v, hv, ht⟩ := hr t m hn
    exact ⟨v, .inr hv, ht⟩

/-- A class takes one of its characters. -/
theorem only_one (q : Char → Bool) : Only (one q) fun u => ∃ c, q c = true ∧ u = [c] := by
  intro t n h
  cases t with
  | nil => contradiction
  | cons c t =>
    simp only [one] at h
    split at h
    · next hc =>
      cases h
      exact ⟨[c], ⟨c, hc, rfl⟩, rfl⟩
    · contradiction

/-- A character that may be left out is taken or not. -/
theorem only_toList (q : Char → Bool) :
    Only (optional (one q)) fun u => ∃ o : Option Char, (∀ c ∈ o, q c = true) ∧ u = o.toList := by
  intro t n h
  obtain ⟨v, rfl | ⟨c, hc, rfl⟩, ht⟩ := only_optional (only_one q) t n h
  · exact ⟨[], ⟨none, by simp, rfl⟩, ht⟩
  · exact ⟨[c], ⟨some c, fun x hx => Option.some.inj hx ▸ hc, rfl⟩, ht⟩

/-- A mark that may be left out is taken or not. -/
theorem only_mark (c : Char) :
    Only (optional (char c)) fun u => ∃ b, u = Written.mark c b := by
  intro t n h
  obtain ⟨v, rfl | ⟨x, hx, rfl⟩, ht⟩ := only_optional (only_one _) t n h
  · exact ⟨[], ⟨false, rfl⟩, ht⟩
  · obtain rfl : x = c := beq_iff_eq.1 hx
    exact ⟨[x], ⟨true, rfl⟩, ht⟩

/-- Only digits are taken, and at least one. -/
theorem only_many1_digits :
    Only (many1 Char.isDigit) fun u => u ≠ [] ∧ ∀ c ∈ u, c.isDigit = true := by
  intro t n h
  obtain ⟨hpos, hlen⟩ := many1_eq_some_iff.1 h
  refine ⟨t.takeWhile Char.isDigit, ⟨?_, fun c hc => List.mem_takeWhile_imp hc⟩, ?_⟩
  · rw [← List.length_pos_iff, hlen]
    exact hpos
  · have htake := List.prefix_iff_eq_take.1 (List.takeWhile_prefix (p := Char.isDigit) (l := t))
    rw [hlen] at htake
    rw [htake, List.take_append_drop]

/-- Just as many digits are taken as there are rounds. -/
theorem only_times_digit (m : Nat) : Only (times m (one Char.isDigit)) fun u =>
    u.length = m ∧ ∀ c ∈ u, c.isDigit = true := by
  induction m with
  | zero =>
    intro t n h
    cases h
    exact ⟨[], ⟨rfl, List.forall_mem_nil _⟩, rfl⟩
  | succ m ih =>
    intro t n h
    obtain ⟨_, ⟨_, ⟨c, hc, rfl⟩, w, ⟨hlen, hw⟩, rfl⟩, ht⟩ := only_both (only_one _) ih t n h
    exact ⟨c :: w, ⟨by rw [List.length_cons, hlen], List.forall_mem_cons.2 ⟨hc, hw⟩⟩, ht⟩

/-- Only numbers of two digits are taken, those that the field is for. -/
theorem only_twoDigits (p : Nat → Nat → Bool) : Only (twoDigits p) fun u =>
    ∃ n, n < 100 ∧ p (n / 10) (n % 10) = true ∧ u = padded 2 n := by
  intro t n h
  match t with
  | [] | [_] => contradiction
  | a :: b :: t =>
    simp only [twoDigits, pair] at h
    split at h
    case isFalse => contradiction
    case isTrue hab =>
      cases h
      obtain ⟨⟨ha, hb⟩, hp⟩ := by simpa only [Bool.and_eq_true] using hab
      -- any two digits are the spelling of a number, whose digits are its quotient and remainder by
      -- ten
      have hpadded : padded 2 (ofDigits [a, b]) = [a, b] :=
        Instant.padded_ofDigits (t := [a, b]) (List.cons_ne_nil _ _) (by simp [ha, hb])
      have hvalue : ofDigits [a, b] = 10 * (a.toNat - 48) + (b.toNat - 48) := by simp [ofDigits]
      have ha' := (isDigit_iff a).1 ha
      have hb' := (isDigit_iff b).1 hb
      have hdiv : ofDigits [a, b] / 10 = a.toNat - 48 := by omega
      have hmod : ofDigits [a, b] % 10 = b.toNat - 48 := by omega
      exact ⟨[a, b], ⟨ofDigits [a, b], by omega, by rw [hdiv, hmod]; exact hp, hpadded.symm⟩, rfl⟩

-- ---------------------------------------------------------------------------
-- Numbers of two digits
-- ---------------------------------------------------------------------------

/-- The recogniser takes the numbers of two digits that have the property `P`. -/
def Numbers (r : Recognizer) (P : Nat → Prop) : Prop :=
  ∃ p, r = twoDigits p ∧ ∀ n < 100, p (n / 10) (n % 10) = true ↔ P n

variable {P : Nat → Prop}

/-- A number that the field is for is taken, whatever follows. -/
theorem Numbers.takes (h : Numbers r P) (hn : n < 100) (hP : P n) (rest : Text) :
    Takes r (padded 2 n) rest := by
  obtain ⟨p, rfl, hp⟩ := h
  exact takes_twoDigits hn ((hp n hn).2 hP) rest

/-- Only numbers that the field is for are taken. -/
theorem Numbers.only (h : Numbers r P) : Only r fun u => ∃ n, P n ∧ u = padded 2 n := by
  obtain ⟨p, rfl, hp⟩ := h
  intro t m hm
  obtain ⟨v, ⟨n, hn, hdigits, hv⟩, ht⟩ := only_twoDigits p t m hm
  exact ⟨v, ⟨n, (hp n hn).1 hdigits, hv⟩, ht⟩

/-- Where no digit stands there is no number. -/
theorem Numbers.eq_none (h : Numbers r P) (ht : t.StartsIn fun c => !c.isDigit) : r t = none := by
  obtain ⟨p, rfl, -⟩ := h
  cases t with
  | nil => rfl
  | cons c t => exact twoDigits_of_not_isDigit (by simpa using ht) p t

theorem numbers_month : Numbers monthDigits fun n => 1 ≤ n ∧ n ≤ 12 := ⟨_, rfl, by decide⟩

theorem numbers_day : Numbers dayDigits fun n => 1 ≤ n ∧ n ≤ 31 := ⟨_, rfl, by decide⟩

theorem numbers_hour : Numbers hourDigits fun n => n < 24 := ⟨_, rfl, by decide⟩

theorem numbers_minute : Numbers minuteDigits fun n => n < 60 := ⟨_, rfl, by decide⟩

end Recognizer

namespace Written

open Recognizer

-- ---------------------------------------------------------------------------
-- Written dates are taken
-- ---------------------------------------------------------------------------

/-- The seconds are taken, or left out where something else stands. -/
theorem Clock.takes_second (c : Clock) :
    Takes (optional minuteDigits) c.secondText (c.fractionText ++ mark 'Z' c.zone) := by
  cases hs : c.second with
  | none =>
    rw [secondText, hs]
    exact takes_optional_nil (numbers_minute.eq_none (c.startsIn_fractionText rfl rfl))
  | some v =>
    have hv := c.second_lt v hs
    rw [secondText, hs]
    exact takes_optional (numbers_minute.takes (by omega) hv _)

/-- The fraction is taken up to the zone mark. -/
theorem Clock.takes_fraction (c : Clock) :
    Takes (optional (both (char '.') (many1 Char.isDigit))) c.fractionText (mark 'Z' c.zone) := by
  cases hf : c.fraction with
  | none =>
    rw [fractionText, hf]
    exact takes_optional_nil (both_eq_none (one_eq_none (startsIn_mark rfl)))
  | some ds =>
    obtain ⟨hne, hdigits⟩ := c.digits ds hf
    have hpoint : Takes (char '.') ['.'] (ds ++ mark 'Z' c.zone) := rfl
    rw [fractionText, hf]
    exact takes_optional
      (takes_both hpoint (takes_many1_digits hne hdigits (startsIn_mark rfl)))

theorem takes_zone (b : Bool) : optional (char 'Z') (mark 'Z' b) = some (mark 'Z' b).length := by
  cases b <;> rfl

/-- The pattern for a time takes all of a time. -/
theorem Clock.timeOfDay_print (c : Clock) : timeOfDay c.print = some c.print.length := by
  have hhour := c.hour_lt
  have hminute := c.minute_lt
  have hdigit := ne_of_isDigit (c := ':') rfl
  have hcolon : c.ending.StartsIn fun x => !(x == ':') :=
    c.startsIn_ending (fun x hx => by rw [hdigit x hx]; rfl) rfl rfl
  -- the fields are put together from the last one on, each in front of the others
  have hending := both_append c.takes_second (both_append c.takes_fraction (takes_zone c.zone))
  have hminutes := both_append (numbers_minute.takes (by omega) hminute _)
    (both_append (takes_mark c.minuteColon hcolon) hending)
  have hhours := both_append (numbers_hour.takes (by omega) hhour _)
    (both_append (takes_mark c.hourColon (startsIn_padded_ne hdigit _ _ _)) hminutes)
  simp only [timeOfDay, clock, Recognizer.sequence, both_assoc]
  exact both_append (takes_toList c.separated (startsIn_padded_ne not_separator_of_isDigit _ _ _))
    hhours

/-- A date may have a time or none. -/
theorem Date.optional_timeOfDay_clockText (d : Date) :
    optional timeOfDay d.clockText = some d.clockText.length := by
  cases hc : d.clock with
  | none =>
    rw [clockText, hc]
    rfl
  | some c =>
    have hclock : (d.clock.map Clock.print).getD [] = c.print := by rw [hc]; rfl
    rw [clockText, hclock, Recognizer.optional, c.timeOfDay_print, Option.getD_some]

/-- The pattern takes all of a written date. -/
theorem Date.dateTime_print (d : Date) : Recognizer.dateTime d.print = some d.print.length := by
  obtain ⟨hmonth, hmonth'⟩ := d.month_mem
  obtain ⟨hday, hday'⟩ := d.day_mem
  have hdash := ne_of_isDigit (c := '-') rfl
  -- again from the last field on; only the year has a field of its own sort
  have hyear := takes_times_digit (Instant.length_padded (n := 4) (by decide) d.year_lt)
    fun c hc => Instant.isDigit_of_mem_padded hc
  have hdays := both_append (numbers_day.takes (by omega) d.day_mem _)
    d.optional_timeOfDay_clockText
  have hmonths := both_append (numbers_month.takes (by omega) d.month_mem _)
    (both_append (takes_mark d.monthDash (startsIn_padded_ne hdash _ _ _)) hdays)
  simp only [dateTime, dayOfCalendar, Recognizer.sequence, both_assoc]
  exact both_append (hyear _)
    (both_append (takes_mark d.yearDash (startsIn_padded_ne hdash _ _ _)) hmonths)

-- ---------------------------------------------------------------------------
-- Only written dates are taken
-- ---------------------------------------------------------------------------

/-- Only written times are taken as a time. -/
theorem Clock.only_timeOfDay : Only timeOfDay fun u => ∃ c : Clock, u = c.print := by
  have hfraction := only_optional (only_both (only_one (· == '.')) only_many1_digits)
  have hending := only_both (only_optional numbers_minute.only)
    (only_both hfraction (only_mark 'Z'))
  have hminutes := only_both numbers_minute.only (only_both (only_mark ':') hending)
  have htime := only_both (only_toList fun c => isBlank c || c == 'T')
    (only_both numbers_hour.only (only_both (only_mark ':') hminutes))
  intro t n h
  simp only [timeOfDay, clock, Recognizer.sequence, both_assoc] at h
  obtain ⟨u, hu, ht⟩ := htime t n h
  refine ⟨u, ?_, ht⟩
  obtain ⟨_, ⟨separator, hseparator, rfl⟩, _, ⟨_, ⟨hour, hhour, rfl⟩, _, ⟨_, ⟨hourColon, rfl⟩, _,
    ⟨_, ⟨minute, hminute, rfl⟩, _, ⟨_, ⟨minuteColon, rfl⟩, _, ⟨second, hsecond, _,
      ⟨fraction, hfraction, _, ⟨zone, rfl⟩, rfl⟩, rfl⟩, rfl⟩, rfl⟩, rfl⟩, rfl⟩, rfl⟩ := hu
  -- what was taken field by field is what a clock holds
  obtain ⟨v, hv, rfl⟩ : ∃ o : Option Nat, (∀ s ∈ o, s < 60) ∧
      second = (o.map (padded 2)).getD [] := by
    rcases hsecond with rfl | ⟨s, hs, rfl⟩
    · exact ⟨none, by simp, rfl⟩
    · exact ⟨some s, by simpa using hs, rfl⟩
  obtain ⟨ds, hds, rfl⟩ : ∃ o : Option Text, (∀ ds ∈ o, ds ≠ [] ∧ ∀ c ∈ ds, c.isDigit = true) ∧
      fraction = (o.map ('.' :: ·)).getD [] := by
    rcases hfraction with rfl | ⟨_, ⟨c, hc, rfl⟩, ds, hds, rfl⟩
    · exact ⟨none, by simp, rfl⟩
    · exact ⟨some ds, by simpa using hds, by rw [beq_iff_eq.1 hc]; rfl⟩
  exact ⟨⟨separator, hour, hourColon, minute, minuteColon, v, ds, zone, hseparator, hhour, hminute,
    hv, hds⟩, rfl⟩

/-- Only written dates are taken as a date. -/
theorem Date.only_dateTime : Only Recognizer.dateTime fun u => ∃ d : Date, u = d.print := by
  have hday := only_both numbers_day.only (only_optional Clock.only_timeOfDay)
  have hmonth := only_both numbers_month.only (only_both (only_mark '-') hday)
  have hdate := only_both (only_times_digit 4) (only_both (only_mark '-') hmonth)
  intro t n h
  simp only [dateTime, dayOfCalendar, Recognizer.sequence, both_assoc] at h
  obtain ⟨u, hu, ht⟩ := hdate t n h
  refine ⟨u, ?_, ht⟩
  obtain ⟨year, ⟨hlen, hdigits⟩, _, ⟨_, ⟨yearDash, rfl⟩, _, ⟨_, ⟨month, hmonth, rfl⟩, _,
    ⟨_, ⟨monthDash, rfl⟩, _, ⟨_, ⟨day, hday, rfl⟩, time, htime, rfl⟩, rfl⟩, rfl⟩, rfl⟩, rfl⟩ := hu
  obtain ⟨clock, rfl⟩ : ∃ o : Option Clock, time = (o.map Clock.print).getD [] := by
    rcases htime with rfl | ⟨c, rfl⟩
    · exact ⟨none, rfl⟩
    · exact ⟨some c, rfl⟩
  -- four digits are a year, and the spelling of that year
  have hyear : ofDigits year < 10 ^ 4 := by
    rw [← hlen]
    exact Instant.ofDigits_lt hdigits
  have hprint : padded 4 (ofDigits year) = year := by
    rw [← hlen]
    exact Instant.padded_ofDigits (List.ne_nil_of_length_pos (by omega)) hdigits
  exact ⟨⟨ofDigits year, yearDash, month, monthDash, day, clock, hyear, hmonth, hday⟩, by
    rw [print, dayBefore, hprint]; rfl⟩

end Written

-- ---------------------------------------------------------------------------
-- Dates are read as they are written
-- ---------------------------------------------------------------------------

/-- **The date pattern and the reader of dates agree.**  What the pattern takes as a whole are the
written dates, and a written date is read as the moment with exactly the numbers that are written,
unless its day is not on the calendar, and those days are given by `isCalendarDay_iff`. -/
theorem dateTime_reads (t : Text) :
    (Pattern.dateTime.take? t = some t.length ↔ ∃ d : Written.Date, t = d.print) ∧
      ∀ d : Written.Date, DateValue.read d.print = d.value := by
  refine ⟨⟨fun h => ?_, ?_⟩, Written.Date.read_print⟩
  · rw [Pattern.take?, Option.filter_eq_some_iff] at h
    obtain ⟨v, hv, ht⟩ := Written.Date.only_dateTime t t.length h.1
    rw [List.drop_length, List.append_nil] at ht
    exact ht ▸ hv
  · rintro ⟨d, rfl⟩
    -- a pattern takes nothing that is empty, but a date has a year
    have hne : d.print ≠ [] :=
      List.append_ne_nil_of_left_ne_nil (Instant.padded_ne_nil 4 d.year) _
    rw [Pattern.take?, Option.filter_eq_some_iff]
    exact ⟨d.dateTime_print, decide_eq_true (List.length_pos_iff.2 hne)⟩

/-- A fraction needs no seconds, and it is cut after nine digits. -/
example : DateValue.read "20200229 0930.12345678901Z".toList =
    .instant ⟨2020, 2, 29, 9, 30, 0, 123456789⟩ := by decide

end Jot
