import Jot.Encode
import Jot.Proofs.Written.DatePattern

/-!
# Jot — canonical dates

Dates can be written in many ways, and results give them in one.  What a reader of dates accepts is
in the range of numbers that have a spelling of a fixed width, so the canonical spelling of a moment
that was read is a written date again, with nothing left out.

* `Instant.inRange_of_read?` — the numbers of a moment that was read;
* `Instant.exists_shortest` — the fraction of a second in its canonical spelling;
* `Instant.InRange.canonical_render` — the form of the canonical spelling;
* `Written.Date.print_canonical` — it is the spelling of a written date;
* `date_normalizes` — reading the canonical spelling changes nothing.
-/

namespace Jot

namespace Instant

variable {t rest : Text} {i : Instant} {n v : Nat}

-- ---------------------------------------------------------------------------
-- The numbers of a moment
-- ---------------------------------------------------------------------------

/-- The numbers of a moment are those of a calendar and a clock. -/
structure InRange (i : Instant) : Prop where
  year   : i.year < 10 ^ 4
  day    : isCalendarDay i.year i.month i.day = true
  hour   : i.hour < 24
  minute : i.minute < 60
  second : i.second < 60
  nanos  : i.nanos < 10 ^ 9

/-- A number that is read fits into its width. -/
theorem digits?_lt (h : digits? n t = some (v, rest)) : v < 10 ^ n := by
  simp only [digits?] at h
  split at h
  · next hlead =>
    cases h
    have hlt := ofDigits_lt fun c hc => List.all_eq_true.1 hlead.2 c hc
    rwa [hlead.1] at hlt
  · contradiction

/-- A day that is read has a year of four digits and is on the calendar. -/
theorem day?_inRange {y m d : Nat} (h : day? t = some ((y, m, d), rest)) :
    y < 10 ^ 4 ∧ isCalendarDay y m d = true := by
  simp only [day?, Option.bind_eq_bind, Option.bind_eq_some_iff] at h
  obtain ⟨⟨year, t₁⟩, hyear, ⟨month, t₂⟩, -, ⟨day, t₃⟩, -, h⟩ := h
  split at h
  · next hday =>
    cases h
    exact ⟨digits?_lt hyear, hday⟩
  · contradiction

theorem nanosOf_lt (h : ∀ c ∈ t, c.isDigit = true) : nanosOf t < 10 ^ 9 := by
  rw [nanosOf_eq h, Nat.div_lt_iff_lt_mul (Nat.pow_pos (by decide)), Nat.mul_comm (10 ^ 9)]
  exact Nat.mul_lt_mul_of_pos_right (ofDigits_lt h) (by decide)

/-- What is read as a fraction is less than a second, and so is nothing at all. -/
theorem fraction_lt (t : Text) : (fraction t).1 < 10 ^ 9 := by
  unfold fraction
  split
  · split
    · exact nanosOf_lt fun c hc => List.mem_takeWhile_imp hc
    · exact Nat.pow_pos (by decide)
  · exact Nat.pow_pos (by decide)

/-- A time that is read is one of a clock. -/
theorem time?_inRange {h m s n : Nat} (htime : time? t = some ((h, m, s, n), rest)) :
    h < 24 ∧ m < 60 ∧ s < 60 ∧ n < 10 ^ 9 := by
  simp only [time?, Option.bind_eq_bind, Option.bind_eq_some_iff] at htime
  obtain ⟨⟨hour, t₁⟩, -, ⟨minute, t₂⟩, -, htime⟩ := htime
  split at htime
  · next hclock =>
    cases htime
    exact ⟨hclock.1, hclock.2.1, hclock.2.2, fraction_lt _⟩
  · contradiction

/-- A moment at the start of a text is in range, whether a time was read or not. -/
theorem inRange_of_lead? (h : lead? t = some (i, rest)) : i.InRange := by
  simp only [lead?, Option.bind_eq_bind, Option.bind_eq_some_iff] at h
  obtain ⟨⟨⟨year, month, day⟩, t₁⟩, hday, h⟩ := h
  obtain ⟨hyear, hcalendar⟩ := day?_inRange hday
  cases htime : time? (skip (fun c => isBlank c || c == 'T') t₁) with
  | none =>
    -- what is not written is zero
    rw [htime] at h
    cases h
    exact ⟨hyear, hcalendar, Nat.succ_pos _, Nat.succ_pos _, Nat.succ_pos _,
      Nat.pow_pos (by decide)⟩
  | some found =>
    obtain ⟨⟨hour, minute, second, nanos⟩, t₂⟩ := found
    obtain ⟨hhour, hminute, hsecond, hnanos⟩ := time?_inRange htime
    rw [htime] at h
    cases h
    exact ⟨hyear, hcalendar, hhour, hminute, hsecond, hnanos⟩

/-- A moment that was read is in range. -/
theorem inRange_of_read? (h : read? t = some i) : i.InRange := by
  unfold read? at h
  split at h
  · next hlead =>
    cases h
    exact inRange_of_lead? hlead
  · contradiction

-- ---------------------------------------------------------------------------
-- Fractions
-- ---------------------------------------------------------------------------

/-- The digits of a fraction of a second: exact to the nanosecond, in groups of three, and no more
of them than that takes. -/
structure Shortest (nanos : Nat) (ds : Text) : Prop where
  digits : ∀ c ∈ ds, c.isDigit = true
  groups : ds.length ∈ [0, 3, 6, 9]
  exact  : Nat.ofDigitChars 10 ds 0 * 10 ^ (9 - ds.length) = nanos
  least  : ∀ w ∈ [0, 3, 6, 9], 10 ^ (9 - w) ∣ nanos → ds.length ≤ w

/-- Zero has no digits. -/
theorem shortest_nil : Shortest 0 [] where
  digits := List.forall_mem_nil _
  groups := List.mem_cons_self
  exact  := rfl
  least  := fun _ _ _ => Nat.zero_le _

/-- A width that is exact, and the least such one, makes the shortest digits. -/
theorem shortest_padded {w : Nat} (hw : w ∈ [0, 3, 6, 9]) (hpos : 0 < w) (hn : n < 10 ^ 9)
    (hexact : 10 ^ (9 - w) ∣ n) (hleast : ∀ u ∈ [0, 3, 6, 9], 10 ^ (9 - u) ∣ n → w ≤ u) :
    Shortest n (padded w (n / 10 ^ (9 - w))) := by
  have hle : w ≤ 9 := (by decide : ∀ w ∈ [0, 3, 6, 9], w ≤ 9) w hw
  have hlt : n / 10 ^ (9 - w) < 10 ^ w := by
    rw [Nat.div_lt_iff_lt_mul (Nat.pow_pos (by decide)), ← Nat.pow_add, Nat.add_sub_cancel' hle]
    exact hn
  have hlen := length_padded hpos hlt
  refine ⟨fun c hc => isDigit_of_mem_padded hc, hlen.symm ▸ hw, ?_, hlen.symm ▸ hleast⟩
  rw [← ofDigits_eq, ofDigits_padded, hlen, Nat.div_mul_cancel hexact]

/-- The fraction that is written is the shortest exact one. -/
theorem exists_shortest (hzero : n ≠ 0) (hn : n < 10 ^ 9) :
    ∃ ds, renderFraction n = '.' :: ds ∧ ds ≠ [] ∧ Shortest n ds := by
  -- the three widths in turn, from the shortest one on
  by_cases hmilli : n % 1000000 = 0
  · refine ⟨padded 3 (n / 10 ^ (9 - 3)), ?_, padded_ne_nil _ _, ?_⟩
    · rw [renderFraction, if_neg hzero, if_pos hmilli]
      rfl
    · exact shortest_padded (by decide) (by decide) hn (Nat.dvd_of_mod_eq_zero hmilli)
        (by simp; omega)
  by_cases hmicro : n % 1000 = 0
  · refine ⟨padded 6 (n / 10 ^ (9 - 6)), ?_, padded_ne_nil _ _, ?_⟩
    · rw [renderFraction, if_neg hzero, if_neg hmilli, if_pos hmicro]
      rfl
    · exact shortest_padded (by decide) (by decide) hn (Nat.dvd_of_mod_eq_zero hmicro)
        (by simp; omega)
  · refine ⟨padded 9 (n / 10 ^ (9 - 9)), ?_, padded_ne_nil _ _, ?_⟩
    · rw [renderFraction, if_neg hzero, if_neg hmilli, if_neg hmicro, Nat.sub_self, Nat.pow_zero,
        Nat.div_one]
    · exact shortest_padded (by decide) (by decide) hn (Nat.one_dvd n) (by simp; omega)

-- ---------------------------------------------------------------------------
-- The canonical spelling
-- ---------------------------------------------------------------------------

/-- A number in exactly `width` digits. -/
structure Field (width n : Nat) (ds : Text) : Prop where
  digits : ∀ c ∈ ds, c.isDigit = true
  length : ds.length = width
  value  : Nat.ofDigitChars 10 ds 0 = n

/-- A number that fits into its width is a field of it. -/
theorem field_padded (hn : 0 < n) (hv : v < 10 ^ n) : Field n v (padded n v) where
  digits := fun _ hc => isDigit_of_mem_padded hc
  length := length_padded hn hv
  value  := (ofDigits_eq _).symm.trans (ofDigits_padded n v)

/-- The canonical spelling of a moment, `YYYY-MM-DDTHH:MM:SS`, the fraction if there is one, `Z`. -/
inductive Canonical (i : Instant) : Text → Prop
  | intro {year month day hour minute second fraction : Text} (hyear : Field 4 i.year year)
      (hmonth : Field 2 i.month month) (hday : Field 2 i.day day) (hhour : Field 2 i.hour hour)
      (hminute : Field 2 i.minute minute) (hsecond : Field 2 i.second second)
      (hfraction : Shortest i.nanos fraction) :
      Canonical i (year ++ '-' :: month ++ '-' :: day ++ 'T' :: hour ++ ':' :: minute ++
        ':' :: second ++ (if fraction = [] then [] else '.' :: fraction) ++ ['Z'])

/-- A day on the calendar is in one of twelve months and among thirty-one days. -/
theorem isCalendarDay_bounds {y m d : Nat} (h : isCalendarDay y m d = true) :
    (1 ≤ m ∧ m ≤ 12) ∧ 1 ≤ d ∧ d ≤ 31 := by
  simp only [isCalendarDay, Bool.and_eq_true, decide_eq_true_eq] at h
  obtain ⟨⟨⟨hm, hm'⟩, hd⟩, hd'⟩ := h
  exact ⟨⟨hm, hm'⟩, hd, Nat.le_trans hd' daysInMonth_le⟩

/-- The spelling of a moment in range is canonical, field by field. -/
theorem InRange.canonical_render (h : i.InRange) : i.Canonical i.render := by
  obtain ⟨⟨hmonth, hmonth'⟩, hday, hday'⟩ := isCalendarDay_bounds h.day
  have two {v : Nat} (hv : v < 100) : Field 2 v (padded 2 v) := field_padded Nat.two_pos hv
  have hhour := h.hour
  have hminute := h.minute
  have hsecond := h.second
  -- a fraction that is zero is left out with its point
  obtain ⟨fraction, hrender, hshortest⟩ : ∃ ds, renderFraction i.nanos =
      (if ds = [] then [] else '.' :: ds) ∧ Shortest i.nanos ds := by
    by_cases hzero : i.nanos = 0
    · rw [hzero]
      exact ⟨[], rfl, shortest_nil⟩
    · obtain ⟨ds, hrender, hne, hshortest⟩ := exists_shortest hzero h.nanos
      exact ⟨ds, hrender.trans (if_neg hne).symm, hshortest⟩
  rw [render, hrender]
  exact .intro (field_padded (by decide) h.year) (two (by omega)) (two (by omega))
    (two (by omega)) (two (by omega)) (two (by omega)) hshortest

end Instant

-- ---------------------------------------------------------------------------
-- Reading the canonical spelling
-- ---------------------------------------------------------------------------

namespace Written

open Instant

variable {i : Instant}

/-- Behind the point there are the shortest digits. -/
theorem shortest_of_after? {n : Nat} {ds : Text} (hn : n < 10 ^ 9)
    (h : Text.after? ['.'] (renderFraction n) = some ds) : ds ≠ [] ∧ Shortest n ds := by
  rw [Text.after?_eq_some_iff] at h
  have hzero : n ≠ 0 := by
    rintro rfl
    contradiction
  obtain ⟨es, hrender, hne, hshortest⟩ := exists_shortest hzero hn
  obtain rfl : es = ds := (List.cons.inj (hrender.symm.trans h)).2
  exact ⟨hne, hshortest⟩

/-- The time of a moment, with nothing left out but a fraction that is zero. -/
def Clock.canonical (i : Instant) (h : i.InRange) : Clock where
  separator   := some 'T'
  hour        := i.hour
  hourColon   := true
  minute      := i.minute
  minuteColon := true
  second      := some i.second
  fraction    := Text.after? ['.'] (renderFraction i.nanos)
  zone        := true
  separated   := by simp
  hour_lt     := h.hour
  minute_lt   := h.minute
  second_lt   := by simpa using h.second
  digits      := fun ds hds =>
    have hshortest := shortest_of_after? h.nanos hds
    ⟨hshortest.1, hshortest.2.digits⟩

/-- A moment as it is written in full. -/
def Date.canonical (i : Instant) (h : i.InRange) : Date where
  year      := i.year
  yearDash  := true
  month     := i.month
  monthDash := true
  day       := i.day
  clock     := some (.canonical i h)
  year_lt   := h.year
  month_mem := (isCalendarDay_bounds h.day).1
  day_mem   := (isCalendarDay_bounds h.day).2

/-- The fraction of the canonical clock is written as it is rendered. -/
theorem Clock.fractionText_canonical (h : i.InRange) :
    (canonical i h).fractionText = renderFraction i.nanos := by
  show ((Text.after? ['.'] (renderFraction i.nanos)).map ('.' :: ·)).getD [] = _
  by_cases hzero : i.nanos = 0
  · rw [hzero]
    rfl
  · obtain ⟨ds, hrender, -⟩ := exists_shortest hzero h.nanos
    rw [hrender]
    rfl

/-- The fraction of the canonical clock is read as the same nanoseconds, since it is exact. -/
theorem Clock.nanos_canonical (h : i.InRange) : (canonical i h).nanos = i.nanos := by
  show ((Text.after? ['.'] (renderFraction i.nanos)).map _).getD 0 = _
  by_cases hzero : i.nanos = 0
  · rw [hzero]
    rfl
  · obtain ⟨ds, hrender, -, hshortest⟩ := exists_shortest hzero h.nanos
    have hle : ds.length ≤ 9 := (by decide : ∀ w ∈ [0, 3, 6, 9], w ≤ 9) _ hshortest.groups
    have hpow : 10 ^ 9 = 10 ^ (9 - ds.length) * 10 ^ ds.length := by
      rw [← Nat.pow_add, Nat.sub_add_cancel hle]
    rw [hrender]
    show Nat.ofDigitChars 10 ds 0 * 10 ^ 9 / 10 ^ ds.length = i.nanos
    rw [hpow, ← Nat.mul_assoc, Nat.mul_div_cancel _ (Nat.pow_pos (by decide)), hshortest.exact]

/-- The canonical spelling is the text of a written date. -/
theorem Date.print_canonical (h : i.InRange) : (canonical i h).print = i.render := by
  have hclock : (Clock.canonical i h).print = 'T' :: (padded 2 i.hour ++ ':' ::
      (padded 2 i.minute ++ ':' :: (padded 2 i.second ++ (renderFraction i.nanos ++ ['Z'])))) := by
    rw [← Clock.fractionText_canonical h]
    rfl
  have hdate : (canonical i h).print = padded 4 i.year ++ '-' :: (padded 2 i.month ++ '-' ::
      (padded 2 i.day ++ (Clock.canonical i h).print)) := rfl
  rw [hdate, hclock, render]
  simp only [List.append_assoc, List.cons_append]

/-- The date pattern takes all of the canonical spelling. -/
theorem Date.take?_canonical (h : i.InRange) :
    Pattern.dateTime.take? i.render = some i.render.length := by
  have htake := (canonical i h).dateTime_print
  rw [print_canonical h] at htake
  have hne : i.render ≠ [] := by simp [render]
  exact Pattern.take?_eq_some_iff.2 ⟨htake, List.length_pos_iff.2 hne⟩

/-- The canonical date means the moment itself. -/
theorem Date.value_canonical (h : i.InRange) : (canonical i h).value = .instant i := by
  have hinstant : (canonical i h).instant = i := calc
    (canonical i h).instant = ⟨i.year, i.month, i.day, i.hour, i.minute, i.second,
      (Clock.canonical i h).nanos⟩ := rfl
    _ = i := by rw [Clock.nanos_canonical h]
  rw [value, hinstant]
  exact if_pos h.day

end Written

/-- A date that is no violation has been read as a moment. -/
theorem DateValue.read?_of_read {t : Text} {i : Instant} (h : read t = .instant i) :
    Instant.read? t = some i := by
  unfold read at h
  split at h
  · next hread => rw [hread, instant.inj h]
  · contradiction

/-- **Dates are normalised once.**  Whatever the spelling of a moment that was read, results give it
in the canonical one; the date pattern takes all of that, and it is read as the same moment. -/
theorem date_normalizes {t : Text} {i : Instant} (h : DateValue.read t = .instant i) :
    ∃ s, (DateValue.instant i).toJson = .string s ∧ i.Canonical s ∧
      Pattern.dateTime.take? s = some s.length ∧ DateValue.read s = .instant i := by
  -- what was read is in range, so it can be written in full
  have hrange := Instant.inRange_of_read? (DateValue.read?_of_read h)
  have hread : DateValue.read i.render = .instant i := by
    rw [← Written.Date.print_canonical hrange, Written.Date.read_print,
      Written.Date.value_canonical hrange]
  exact ⟨i.render, rfl, hrange.canonical_render, Written.Date.take?_canonical hrange, hread⟩

/-- Year zero and ten digits of a second. -/
theorem date_normalizes_year_zero :
    DateValue.read "0000-02-29 0930:.0123456789".toList = .instant ⟨0, 2, 29, 9, 30, 0, 12345678⟩ ∧
    ∃ s, (DateValue.instant ⟨0, 2, 29, 9, 30, 0, 12345678⟩).toJson = .string s ∧
      (⟨0, 2, 29, 9, 30, 0, 12345678⟩ : Instant).Canonical s ∧
      Pattern.dateTime.take? s = some s.length ∧
      DateValue.read s = .instant ⟨0, 2, 29, 9, 30, 0, 12345678⟩ :=
  have h : DateValue.read "0000-02-29 0930:.0123456789".toList =
    .instant ⟨0, 2, 29, 9, 30, 0, 12345678⟩ := by decide
  ⟨h, date_normalizes h⟩

end Jot
