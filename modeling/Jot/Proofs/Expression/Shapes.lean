import Jot.Pattern.Expression
import Jot.Proofs.Delimiter
import Jot.Proofs.Expression.Recognizers

/-!
# Jot — shapes and expressions

The shapes of which the patterns are made compute their expressions.  Most sequences are settled
part by part: behind a part that can give something back there stands nothing that could begin
with it, or something that matches everywhere.  Numbers are not: digits are given back to the last
part of a number, and it is all the same how many.

* `Recognizer.computes_number`, `Recognizer.computes_dateTime`, `Recognizer.computes_webAddress` —
  numbers, dates and addresses;
* `Quoted.computes_nameOf`, `Label.computes_recognize` — names in quotes and labels.
-/

namespace Jot

-- ---------------------------------------------------------------------------
-- Numbers
-- ---------------------------------------------------------------------------

namespace Regex

theorem match?_star_seq_of_eq_nil {r s : Regex} {t : Text} (h : r.ends t = []) :
    (seq (star r) s).match? t = s.match? t := by
  rw [match?_seq_eq_findSome?, ends_star_of_eq_nil h]
  simp

/-- A repetition takes one more round if what follows can be matched behind it at all, and else it
is over. -/
theorem match?_star_seq_of_eq_singleton {r s : Regex} {t : Text} {n : Nat} (h : r.ends t = [n])
    (hpos : 0 < n) (hle : n ≤ t.length) :
    (seq (star r) s).match? t =
      (((seq (star r) s).match? (t.drop n)).map (n + ·)).or (s.match? t) := by
  simp only [match?, ends_seq, ends_star_of_eq_singleton h hpos hle, List.flatMap_append,
    List.flatMap_map, List.head?_append, List.flatMap_singleton, List.drop_zero, Nat.zero_add,
    List.map_id', ← List.head?_map, List.map_flatMap, List.map_map, List.drop_drop]
  -- what is left are the same sums, bracketed in two ways
  congr 3
  funext m
  congr 1
  funext k
  simp [Nat.add_assoc]

end Regex

namespace Recognizer

theorem computes_char (c : Char) : Computes (char c) (.char c) := computes_one _

theorem computes_digits : Computes (many1 Char.isDigit) (.plus .digit) := computes_many1 _

/-- A repetition takes a character of its class and all of them that follow it. -/
theorem many1_cons_of_pos {p : Char → Bool} {c : Char} (hc : p c = true) (t : Text) :
    many1 p (c :: t) = some (1 + (t.takeWhile p).length) := by
  rw [many1, List.takeWhile_cons_of_pos hc, List.length_cons]
  exact congrArg some (Nat.add_comm _ 1)

/-- The part of a number behind the point, the point included. -/
def fraction : Recognizer := both (char '.') (many1 Char.isDigit)

/-- A number without its exponent. -/
def mantissa : Recognizer := firstOf [both (many Char.isDigit) fraction, many1 Char.isDigit]

theorem computes_fraction : Computes fraction (.seq (.char '.') (.plus .digit)) :=
  computes_one_both computes_digits

/-- All digits are read, then a fraction; where there is none, the digits alone are the number. -/
theorem mantissa_eq (t : Text) :
    mantissa t = ((fraction (t.drop (t.takeWhile Char.isDigit).length)).map
      ((t.takeWhile Char.isDigit).length + ·)).or (many1 Char.isDigit t) := by
  show Option.or _ (Option.or _ none) = _
  rw [Option.or_none]
  rfl

/-- A digit in front of a number lengthens it, and in front of anything else it is one, with the
digits behind it. -/
theorem mantissa_cons_of_isDigit {c : Char} (hc : c.isDigit = true) (t : Text) :
    mantissa (c :: t) =
      ((mantissa t).map (1 + ·)).or (some (1 + (t.takeWhile Char.isDigit).length)) := by
  rw [mantissa_eq, mantissa_eq, List.takeWhile_cons_of_pos hc, List.length_cons,
    List.drop_succ_cons, many1_cons_of_pos hc, many1]
  cases fraction (t.drop (t.takeWhile Char.isDigit).length) with
  | some n =>
    simp only [Option.map_some, Option.some_or, Option.some_inj]
    omega
  | none =>
    cases (t.takeWhile Char.isDigit).length <;> rfl

/-- A number that begins with no digit begins with its point. -/
theorem mantissa_cons_of_not_isDigit {c : Char} (hc : c.isDigit = false) (t : Text) :
    mantissa (c :: t) = both (optional (char '.')) (many1 Char.isDigit) (c :: t) := by
  have hnot : ¬c.isDigit = true := by simp [hc]
  rw [mantissa_eq, List.takeWhile_cons_of_neg hnot]
  by_cases hpoint : c = '.'
  · subst hpoint
    simp [fraction, both, optional, char, one, many1, Function.comp_def]
  · simp [fraction, both, optional, char, one, many1, hpoint, hc]

/-- Behind the digits of a number there is a fraction, or the last digit is given back. -/
theorem computes_mantissa_left : Computes mantissa
    (.sequence [.star .digit, .optional (.char '.'), .plus .digit]) := by
  have hlast : Computes (both (optional (char '.')) (many1 Char.isDigit))
      (.sequence [.optional (.char '.'), .plus .digit]) :=
    computes_optional_char_both computes_digits.last fun _ => rfl
  intro t
  -- by induction on the digits; the sequence is not settled, so a round of the repetition is taken
  -- off at a time
  induction t with
  | nil =>
    refine .trans ?_ (Regex.match?_star_seq_of_eq_nil (Regex.ends_one_nil _)).symm
    exact hlast []
  | cons c t ih =>
    show _ = (Regex.seq (.star .digit) _).match? (c :: t)
    cases hc : c.isDigit with
    | false =>
      rw [Regex.match?_star_seq_of_eq_nil (by simp [Regex.digit, hc]),
        mantissa_cons_of_not_isDigit hc]
      exact hlast (c :: t)
    | true =>
      have hne : c ≠ '.' := by
        rintro rfl
        contradiction
      -- with this digit for the last part of the number, the digits alone are what is matched
      have hdigits : both (optional (char '.')) (many1 Char.isDigit) (c :: t) =
          some (1 + (t.takeWhile Char.isDigit).length) := by
        rw [← many1_cons_of_pos hc]
        simp [both, optional, char, one, hne]
      rw [Regex.match?_star_seq_of_eq_singleton (n := 1) (by simp [Regex.digit, hc]) Nat.one_pos
        (by simp), mantissa_cons_of_isDigit hc, ih, ← hdigits, hlast (c :: t)]
      rfl

/-- The second spelling of a number adds nothing to the first one. -/
theorem computes_mantissa : Computes mantissa
    (.alt (.sequence [.star .digit, .optional (.char '.'), .plus .digit])
      (.sequence [.plus .digit, .optional (.char '.'), .star .digit])) := by
  intro t
  rw [Regex.match?_alt, ← computes_mantissa_left t]
  cases hm : mantissa t with
  | some n => rfl
  | none =>
    -- where the first spelling fails there is no digit, and the second one begins with one
    have hdigits : Regex.match? (.plus .digit) t = none := by
      rw [mantissa_eq, Option.or_eq_none_iff] at hm
      rw [← computes_digits t, hm.2]
    show none = (Regex.seq (.plus .digit) _).match? t
    rw [Regex.match?_seq_eq_findSome?, Regex.match?_eq_none_iff.1 hdigits]
    rfl

/-- A number and perhaps its exponent, which has a sign or none. -/
theorem computes_number : Computes number .number := by
  have hsign := computes_optional_one_both (p := fun c => c == '+' || c == '-')
    computes_digits.last fun c t hc => by
      have hsigns : c = '+' ∨ c = '-' := by simpa using hc
      rcases hsigns with rfl | rfl <;> rfl
  have hexponent := computes_optional (computes_one_both (p := fun c => c == 'e' || c == 'E') hsign)
  exact computes_mantissa.both hexponent (Regex.settled_of_total (Regex.total_optional _))

theorem computes_signedNumber : Computes signedNumber .signedNumber :=
  computes_optional_char_both computes_number fun _ => rfl

-- ---------------------------------------------------------------------------
-- Dates
-- ---------------------------------------------------------------------------

theorem isDigit_iff (c : Char) : c.isDigit = true ↔ 48 ≤ c.toNat ∧ c.toNat ≤ 57 := by
  simp [Char.isDigit, UInt32.le_iff_toNat_le]

/-- Two digits are described by their values or by themselves. -/
theorem computes_twoDigits {p : Nat → Nat → Bool} {q : Char → Char → Bool} {e : Regex}
    (hq : Computes (pair q) e)
    (h : ∀ a b : Char,
      (a.isDigit && b.isDigit && p (a.toNat - 48) (b.toNat - 48)) = true ↔ q a b = true) :
    Computes (twoDigits p) e := by
  have hpair : twoDigits p = pair q :=
    congrArg pair (funext fun a => funext fun b => Bool.eq_iff_iff.2 (h a b))
  rw [hpair]
  exact hq

theorem twoDigits_of_not_isDigit {c : Char} (hc : c.isDigit = false) (p : Nat → Nat → Bool)
    (t : Text) : twoDigits p (c :: t) = none := by
  cases t <;> simp [twoDigits, pair, hc]

/-- The months are written with ten, eleven and twelve in front. -/
theorem computes_monthDigits : Computes monthDigits
    (.alt (.seq (.char '1') (.digitOf ['0', '1', '2']))
      (.seq (.char '0') (.one fun c => c.isDigit && c != '0'))) := by
  refine computes_twoDigits (computes_pair_or (computes_pair _ _) (computes_pair _ _)) ?_
  intro a b
  simp [isDigit_iff, ← Char.toNat_inj]
  omega

/-- The days of a month are written by their first digit, with the last two in front. -/
theorem computes_dayDigits : Computes dayDigits
    (.choice (.seq (.char '3') (.digitOf ['0', '1'])) [
      .seq (.char '0') (.one fun c => c.isDigit && c != '0'),
      .seq (.digitOf ['1', '2']) .digit]) := by
  refine computes_twoDigits (computes_pair_or (computes_pair _ _)
    (computes_pair_or (computes_pair _ _) (computes_pair _ _))) ?_
  intro a b
  simp [isDigit_iff, ← Char.toNat_inj]
  omega

/-- The hours of a day are written with those from twenty on in front. -/
theorem computes_hourDigits : Computes hourDigits
    (.alt (.seq (.char '2') (.digitOf ['0', '1', '2', '3']))
      (.seq (.digitOf ['0', '1']) .digit)) := by
  refine computes_twoDigits (computes_pair_or (computes_pair _ _) (computes_pair _ _)) ?_
  intro a b
  simp [isDigit_iff, ← Char.toNat_inj]
  omega

/-- Minutes and seconds go up to fifty-nine. -/
theorem computes_minuteDigits : Computes minuteDigits
    (.seq (.digitOf ['0', '1', '2', '3', '4', '5']) .digit) := by
  refine computes_twoDigits (computes_pair _ _) ?_
  intro a b
  simp [isDigit_iff, ← Char.toNat_inj]
  omega

/-- What separates a time from its day is no digit. -/
theorem isDigit_eq_false_of_separator {c : Char} (hc : (isBlank c || c == 'T') = true) :
    c.isDigit = false := by
  rw [Bool.eq_false_iff, ne_eq, isDigit_iff]
  simp [isBlank, ← Char.toNat_inj] at hc
  omega

open Regex in
theorem computes_timeOfDay : Computes timeOfDay
    (.sequence [
      .optional (.one fun c => isBlank c || c == 'T'),
      .alt (.seq (.char '2') (.digitOf ['0', '1', '2', '3'])) (.seq (.digitOf ['0', '1']) .digit),
      .optional (.char ':'),
      .digitOf ['0', '1', '2', '3', '4', '5'], .digit,
      .optional (.char ':'),
      .optional (.seq (.digitOf ['0', '1', '2', '3', '4', '5']) .digit),
      .optional (.seq (.char '.') (.plus .digit)),
      .optional (.char 'Z')]) := by
  -- fields of two digits give nothing back
  have hwide : Definite (.seq (.digitOf ['0', '1', '2', '3', '4', '5']) .digit) :=
    (wide_seq (wide_one _) (wide_one _)).definite
  have hwide' : Definite (.alt (.seq (.char '2') (.digitOf ['0', '1', '2', '3']))
      (.seq (.digitOf ['0', '1']) .digit)) :=
    (wide_alt (wide_seq (wide_one _) (wide_one _)) (wide_seq (wide_one _) (wide_one _))).definite
  -- from the second colon on, every part can be left out
  have hzone := (computes_optional (computes_char 'Z')).last
  have hzone' := total_seq (total_optional (.char 'Z')) total_empty
  have hfraction := (computes_optional computes_fraction).both hzone (settled_of_total hzone')
  have hfraction' := total_seq (total_optional (.seq (.char '.') (.plus .digit))) hzone'
  have hseconds :=
    (computes_optional computes_minuteDigits).both hfraction (settled_of_total hfraction')
  have hcolon := (computes_optional (computes_char ':')).both hseconds
    (settled_of_total (total_seq (total_optional _) hfraction'))
  have hminutes := (computes_minuteDigits.both hcolon (settled_of_definite hwide)).of_ends_eq
    fun t => (ends_seq_assoc _ _ _ t).symm
  have hcolon' := computes_optional_char_both (c := ':') hminutes fun t =>
    both_eq_none (twoDigits_of_not_isDigit rfl _ t)
  have hhours := computes_hourDigits.both hcolon' (settled_of_definite hwide')
  have htime := computes_optional_one_both hhours fun c t hc =>
    both_eq_none (twoDigits_of_not_isDigit (isDigit_eq_false_of_separator hc) _ t)
  simp only [timeOfDay, clock, sequence, both_assoc]
  exact htime

open Regex in
/-- A date is computed field by field, since its fields have fixed widths and its dashes begin none
of them. -/
theorem computes_dateTime : Computes dateTime .dateTime := by
  have hmonth : Definite (.alt (.seq (.char '1') (.digitOf ['0', '1', '2']))
      (.seq (.char '0') (.one fun c => c.isDigit && c != '0'))) :=
    (wide_alt (wide_seq (wide_one _) (wide_one _)) (wide_seq (wide_one _) (wide_one _))).definite
  have hday : Definite (.choice (.seq (.char '3') (.digitOf ['0', '1'])) [
      .seq (.char '0') (.one fun c => c.isDigit && c != '0'),
      .seq (.digitOf ['1', '2']) .digit]) :=
    (wide_alt (wide_seq (wide_one _) (wide_one _))
      (wide_alt (wide_seq (wide_one _) (wide_one _)) (wide_seq (wide_one _) (wide_one _)))).definite
  -- from the back to the front: what follows a dash is never one itself
  have htime := (computes_optional computes_timeOfDay).last
  have hdays := computes_dayDigits.both htime (settled_of_definite hday)
  have hdash := computes_optional_char_both (c := '-') hdays fun t =>
    both_eq_none (twoDigits_of_not_isDigit rfl _ t)
  have hmonths := computes_monthDigits.both hdash (settled_of_definite hmonth)
  have hdash' := computes_optional_char_both (c := '-') hmonths fun t =>
    both_eq_none (twoDigits_of_not_isDigit rfl _ t)
  have hdate := (computes_times (computes_one Char.isDigit) (wide_one _).definite 4).both hdash'
    (settled_of_definite (wide_times (wide_one _) 4).definite)
  simp only [dateTime, dayOfCalendar, sequence, both_assoc]
  exact hdate

-- ---------------------------------------------------------------------------
-- Addresses and openers
-- ---------------------------------------------------------------------------

theorem isSchemeTail_colon : isSchemeTail ':' = false := by decide

open Regex in
/-- An address begins with a scheme or with three letters; the marks behind these are drawn into the
alternative. -/
theorem computes_webAddress : Computes webAddress .webAddress := by
  have hurl := computes_many1 isUrlChar
  have hmark := (computes_literal [':', '/', '/']).both hurl
    (settled_of_definite (wide_literal _).definite)
  -- a colon ends the scheme, so giving back never leads to one
  have hscheme : Settled (.star (.one isSchemeTail))
      (.seq (.literal [':', '/', '/']) (.plus (.one isUrlChar))) :=
    settled_of_rejects (givesBack_star (once_one _)) <| hmark.rejects fun c t hc => by
      have hne : ':' ≠ c := by
        rintro rfl
        rw [isSchemeTail_colon] at hc
        contradiction
      exact both_eq_none (by simp [literal, Text.after?, hne])
  have hleft := (computes_one_both (p := Char.isAlpha)
    ((computes_many _).both hmark hscheme)).of_ends_eq
      fun t => ends_sequence_seq [.one Char.isAlpha, .star (.one isSchemeTail), _] _ t
  have hright := (computes_literal ['w', 'w', 'w', '.']).both hurl
    (settled_of_definite (wide_literal _).definite)
  exact (computes_firstOf_cons hleft (computes_firstOf_singleton hright)).of_ends_eq
    fun t => ends_seq_alt _ _ _ t

open Regex in
/-- The sign and the three full stops never match in the same place. -/
theorem definite_ellipsis : Definite .ellipsis := by
  refine definite_alt (wide_one _).definite (wide_times (wide_one _) 3).definite fun t => ?_
  cases t with
  | nil => exact .inl (ends_one_nil _)
  | cons c t =>
    by_cases hc : c = '…'
    · subst hc
      refine .inr ?_
      rw [Regex.times, ends_seq, Regex.char, ends_one_cons]
      rfl
    · exact .inl (by simp [Regex.char, hc])

theorem computes_ellipsis : Computes ellipsis .ellipsis :=
  computes_firstOf_cons (computes_char '…') (computes_firstOf_singleton (computes_literal _))

/-- Words are tried in the order in which they are listed. -/
theorem computes_choice_literal (v : Text) (vs : List Text) :
    Computes (firstOf ((v :: vs).map literal)) (.choice (.literal v) (vs.map .literal)) := by
  induction vs generalizing v with
  | nil => exact computes_firstOf_singleton (computes_literal v)
  | cons w vs ih => exact computes_firstOf_cons (computes_literal v) (ih w)

/-- A literal ends behind itself and nowhere else. -/
theorem isPrefix_of_mem_ends_literal {v t : Text} {n : Nat} (h : n ∈ (Regex.literal v).ends t) :
    v <+: t ∧ n = v.length := by
  refine ⟨?_, Regex.wide_literal v t n h⟩
  cases hr : literal v t with
  | none =>
    rw [computes_literal, Regex.match?_eq_none_iff] at hr
    rw [hr] at h
    contradiction
  | some m =>
    obtain ⟨rest, hrest, -⟩ := Option.map_eq_some_iff.1 hr
    exact ⟨rest, (Text.after?_eq_some_iff.1 hrest).symm⟩

/-- A choice of words ends behind a word that the text begins with. -/
theorem exists_of_mem_ends_choice_literal {v t : Text} {vs : List Text} {n : Nat}
    (h : n ∈ (Regex.choice (.literal v) (vs.map .literal)).ends t) :
    ∃ w ∈ v :: vs, w <+: t ∧ n = w.length := by
  induction vs generalizing v with
  | nil => exact ⟨v, List.mem_singleton.2 rfl, isPrefix_of_mem_ends_literal h⟩
  | cons x vs ih =>
    rw [List.map_cons, Regex.choice, Regex.ends_alt, List.mem_append] at h
    rcases h with h | h
    · exact ⟨v, List.mem_cons_self, isPrefix_of_mem_ends_literal h⟩
    · obtain ⟨w, hw, hprefix⟩ := ih h
      exact ⟨w, List.mem_cons_of_mem v hw, hprefix⟩

/-- A choice of words none of which begins another one. -/
theorem definite_choice_literal {v : Text} {vs : List Text}
    (h : ∀ a ∈ v :: vs, ∀ b ∈ v :: vs, a <+: b → a = b) :
    Regex.Definite (.choice (.literal v) (vs.map .literal)) := by
  intro t m hm n hn
  obtain ⟨a, ha, hat, rfl⟩ := exists_of_mem_ends_choice_literal hm
  obtain ⟨b, hb, hbt, rfl⟩ := exists_of_mem_ends_choice_literal hn
  -- two words that the same text begins with begin each other
  rcases List.prefix_or_prefix_of_prefix hat hbt with hab | hba
  · rw [h a ha b hb hab]
  · rw [h b hb a ha hba]

/-- No verb begins another one, so the verb that is found first is the only one. -/
theorem computes_reactionOpener :
    Computes reactionOpener (.seq .reactionVerb (.literal [' ', '“'])) := by
  have hverbs : ∀ a ∈ reactionVerbs, ∀ b ∈ reactionVerbs, a <+: b → a = b := by decide
  exact (computes_choice_literal _ _).both (computes_literal _)
    (Regex.settled_of_definite (definite_choice_literal hverbs))

theorem computes_operatorName : Computes operatorName
    (.seq (.one isOperatorChar) (.upTo operatorTailLimit (.one isOperatorChar))) :=
  computes_one_both (computes_upTo _ _)

end Recognizer

-- ---------------------------------------------------------------------------
-- Labels
-- ---------------------------------------------------------------------------

namespace Quoted

open Regex

variable {allowed : Char → Bool} {c : Char} {t : Text}

/-- The cases of `close` in which a character stands for itself. -/
theorem ne_escape_of_cases (hescape : ∀ x v, c = '\\' → t = x :: v → False)
    (hlast : c = '\\' → t = [] → False) : c ≠ '\\' := by
  rintro rfl
  cases t with
  | nil => exact hlast rfl rfl
  | cons x v => exact hescape x v rfl rfl

/-- A character of a quoted name: one that is neither a quote nor a backslash, or any one behind a
backslash. -/
def item (allowed : Char → Bool) : Regex :=
  alt (one fun c => c != '"' && c != '\\' && allowed c) (seq (Regex.char '\\') (one allowed))

theorem ends_item_of_quote (t : Text) : (item allowed).ends ('"' :: t) = [] := by
  simp [item, ends_alt, ends_seq, Regex.char]

/-- A backslash and what it protects are one character of a name. -/
theorem ends_item_of_escape (c : Char) (t : Text) :
    (item allowed).ends ('\\' :: c :: t) = if allowed c then [2] else [] := by
  cases hc : allowed c <;> simp [item, ends_alt, ends_seq, Regex.char, hc]

theorem ends_item_of_ne (hquote : c ≠ '"') (hescape : c ≠ '\\') (t : Text) :
    (item allowed).ends (c :: t) = if allowed c then [1] else [] := by
  cases hc : allowed c <;> simp [item, ends_alt, ends_seq, Regex.char, hquote, hescape, hc]

/-- What stands behind the opening quote of a name. -/
def tail (allowed : Char → Bool) : Regex :=
  seq (star (item allowed)) (sequence [Regex.char '"'])

/-- Where no character of a name stands there must be its closing quote. -/
theorem match?_tail_of_eq_nil (h : (item allowed).ends t = []) :
    (tail allowed).match? t = Recognizer.char '"' t := by
  rw [tail, match?_star_seq_of_eq_nil h]
  exact ((Recognizer.computes_char '"').last t).symm

/-- A character of a name is read, and the closing quote is looked for behind it. -/
theorem match?_tail_of_eq_singleton {m : Nat} (h : (item allowed).ends t = [m]) (hpos : 0 < m)
    (hle : m ≤ t.length) (hquote : Recognizer.char '"' t = none) :
    (tail allowed).match? t = ((tail allowed).match? (t.drop m)).map (m + ·) := by
  have hlast : (sequence [Regex.char '"']).match? t = none := by
    rw [← hquote]
    exact ((Recognizer.computes_char '"').last t).symm
  rw [tail, match?_star_seq_of_eq_singleton h hpos hle, hlast, Option.or_none]

/-- The rest of a quoted name, its closing quote included. -/
theorem close_eq_map_match? (allowed : Char → Bool) (n : Nat) (t : Text) :
    close allowed n t = ((tail allowed).match? t).map (n + ·) := by
  -- by the cases of the reader: the end of the text, a quote, a backslash with something behind it,
  -- a lone one, and any other character
  fun_induction close allowed n t with
  | case1 n =>
    rw [match?_tail_of_eq_nil (by simp [item, ends_alt, ends_seq])]
    rfl
  | case2 n t =>
    rw [match?_tail_of_eq_nil (ends_item_of_quote t)]
    rfl
  | case3 n c t hc ih =>
    have hends : (item allowed).ends ('\\' :: c :: t) = [2] := by
      rw [ends_item_of_escape, if_pos hc]
    rw [match?_tail_of_eq_singleton hends Nat.two_pos (by simp) rfl, ih, Option.map_map]
    simp [Function.comp_def, Nat.add_assoc]
  | case4 n c t hc =>
    rw [match?_tail_of_eq_nil (by rw [ends_item_of_escape, if_neg hc])]
    rfl
  | case5 n =>
    rw [match?_tail_of_eq_nil (by simp [item, ends_alt, ends_seq, Regex.char])]
    rfl
  | case6 n c t hquote hescape hlast hc ih =>
    have hplain : c ≠ '"' := hquote
    have hne := ne_escape_of_cases hescape hlast
    have hends : (item allowed).ends (c :: t) = [1] := by
      rw [ends_item_of_ne hplain hne, if_pos hc]
    rw [match?_tail_of_eq_singleton hends Nat.one_pos (by simp)
      (by simp [Recognizer.char, Recognizer.one, hplain]), ih, Option.map_map]
    simp [Function.comp_def, Nat.add_assoc]
  | case7 n c t hquote hescape hlast hc =>
    have hplain : c ≠ '"' := hquote
    have hne := ne_escape_of_cases hescape hlast
    rw [match?_tail_of_eq_nil (by rw [ends_item_of_ne hplain hne, if_neg hc])]
    simp [Recognizer.char, Recognizer.one, hplain]

/-- A name in quotes is an opening quote and then all up to the closing one. -/
theorem nameOf_eq_both (allowed : Char → Bool) :
    nameOf allowed = Recognizer.both (Recognizer.char '"') (close allowed 0) := by
  funext t
  cases t with
  | nil => rfl
  | cons c t =>
    by_cases hc : c = '"'
    · subst hc
      show close allowed 1 t = (close allowed 0 t).map (1 + ·)
      simp [close_eq_map_match?]
    · rw [nameOf_of_ne hc]
      exact (Recognizer.both_eq_none (by simp [Recognizer.char, Recognizer.one, hc])).symm

/-- Names in quotes are read without going back, since a quote is neither a plain character nor a
protected one. -/
theorem computes_nameOf (allowed : Char → Bool) :
    Recognizer.Computes (nameOf allowed) (Regex.quotedName allowed) := by
  have hclose : Recognizer.Computes (close allowed 0) (tail allowed) := by
    intro t
    rw [close_eq_map_match?]
    simp
  rw [nameOf_eq_both]
  exact Recognizer.computes_one_both hclose

end Quoted

/-- A label is a name in quotes, or else a first character and a bounded number of others. -/
theorem Label.computes_recognize : Recognizer.Computes Label.recognize .label :=
  Recognizer.computes_firstOf_cons (Quoted.computes_nameOf _)
    (Recognizer.computes_firstOf_singleton
      (Recognizer.computes_one_both (Recognizer.computes_upTo _ _)))

end Jot
