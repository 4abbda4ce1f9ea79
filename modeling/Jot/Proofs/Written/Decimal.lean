import Mathlib.Algebra.Order.Ring.Nat
import Mathlib.Tactic.Ring
import Jot.Instant
import Jot.Proofs.Expression.Shapes

/-!
# Jot — decimal digits

The parts of a date are numbers of a fixed number of digits, filled up with zeros, and a fraction
of a second is any number of digits behind a point.

* `Instant.padded_ofDigits` — any digits are the spelling of the number that they stand for;
* `Instant.digits?_padded_append` — that spelling is read back, whatever follows;
* `Instant.nanosOf_eq` — a fraction is rounded down to nanoseconds, however long it is.
-/

namespace Jot.Instant

variable {s t : Text} {n v : Nat}

-- ---------------------------------------------------------------------------
-- The number that digits stand for
-- ---------------------------------------------------------------------------

theorem ofDigits_eq (t : Text) : ofDigits t = Nat.ofDigitChars 10 t 0 :=
  Nat.ofDigitChars_eq_foldl.symm

/-- Digits in front count as many tens as there are digits behind. -/
theorem ofDigits_append (s t : Text) :
    ofDigits (s ++ t) = 10 ^ t.length * ofDigits s + ofDigits t := by
  rw [ofDigits_eq, ofDigits_eq, ofDigits_eq, Nat.ofDigitChars_append,
    Nat.ofDigitChars_eq_ofDigitChars_zero]

theorem ofDigits_cons (c : Char) (t : Text) :
    ofDigits (c :: t) = 10 ^ t.length * (c.toNat - 48) + ofDigits t := by
  rw [← List.singleton_append, ofDigits_append]
  simp [ofDigits]

/-- A number has no more than its digits say. -/
theorem ofDigits_lt (h : ∀ c ∈ t, c.isDigit = true) : ofDigits t < 10 ^ t.length := by
  induction t with
  | nil => decide
  | cons c t ih =>
    obtain ⟨hc, ht⟩ := List.forall_mem_cons.1 h
    -- the leading digit is at most nine, and the others make less than one more of it
    have hdigit : c.toNat - 48 ≤ 9 := by
      have := (Recognizer.isDigit_iff c).1 hc
      omega
    have hlead : 10 ^ t.length * (c.toNat - 48) ≤ 10 ^ t.length * 9 :=
      Nat.mul_le_mul_left _ hdigit
    have htail := ih ht
    rw [ofDigits_cons, List.length_cons, Nat.pow_succ]
    omega

/-- As many digits for the same number are the same digits. -/
theorem eq_of_ofDigits_eq (hs : ∀ c ∈ s, c.isDigit = true) (ht : ∀ c ∈ t, c.isDigit = true)
    (hlen : s.length = t.length) (h : ofDigits s = ofDigits t) : s = t := by
  induction s generalizing t with
  | nil => exact (List.length_eq_zero_iff.1 hlen.symm).symm
  | cons c s ih =>
    cases t with
    | nil => exact absurd hlen (Nat.succ_ne_zero _)
    | cons d t =>
      obtain ⟨hc, hs⟩ := List.forall_mem_cons.1 hs
      obtain ⟨hd, ht⟩ := List.forall_mem_cons.1 ht
      have hlen : s.length = t.length := Nat.succ.inj hlen
      rw [ofDigits_cons, ofDigits_cons, hlen] at h
      have hslt := ofDigits_lt hs
      have htlt := ofDigits_lt ht
      rw [hlen] at hslt
      -- the leading digit and the others are quotient and remainder of the number
      have htail : ofDigits s = ofDigits t := by
        have hmod := congrArg (· % 10 ^ t.length) h
        simpa [Nat.mul_add_mod, Nat.mod_eq_of_lt hslt, Nat.mod_eq_of_lt htlt] using hmod
      have hlead : c.toNat - 48 = d.toNat - 48 := by
        rw [htail] at h
        exact Nat.eq_of_mul_eq_mul_left (Nat.pow_pos (by decide)) (Nat.add_right_cancel h)
      have hcd : c = d := by
        have := (Recognizer.isDigit_iff c).1 hc
        have := (Recognizer.isDigit_iff d).1 hd
        exact Char.toNat_inj.1 (by omega)
      rw [hcd, ih hs ht hlen htail]

-- ---------------------------------------------------------------------------
-- Numbers of a fixed width
-- ---------------------------------------------------------------------------

theorem padded_ne_nil (n v : Nat) : padded n v ≠ [] :=
  List.append_ne_nil_of_right_ne_nil _ Nat.toDigits_ne_nil

/-- A number that fits into the width is written with just as many digits. -/
theorem length_padded (hn : 0 < n) (hv : v < 10 ^ n) : (padded n v).length = n := by
  have hlen : (Nat.toDigits 10 v).length ≤ n := (Nat.length_toDigits_le_iff (by decide) hn).2 hv
  simp only [padded, Text.ofNat, List.length_append, List.length_replicate]
  omega

/-- Only digits are written. -/
theorem isDigit_of_mem_padded {c : Char} (hc : c ∈ padded n v) : c.isDigit = true := by
  rcases List.mem_append.1 hc with hc | hc
  · rw [List.eq_of_mem_replicate hc]
    rfl
  · exact Nat.isDigit_of_mem_toDigits (by decide) (by decide) hc

theorem ofDigits_padded (n v : Nat) : ofDigits (padded n v) = v := by
  rw [padded, ofDigits_append, ofDigits_eq, Nat.ofDigitChars_replicate_zero, Nat.mul_zero,
    Nat.mul_zero, Nat.zero_add, ofDigits_eq]
  exact Nat.ofDigitChars_ten_toDigits

/-- Any digits are the spelling, in their width, of the number that they stand for. -/
theorem padded_ofDigits (ht : t ≠ []) (h : ∀ c ∈ t, c.isDigit = true) :
    padded t.length (ofDigits t) = t :=
  eq_of_ofDigits_eq (fun _ hc => isDigit_of_mem_padded hc) h
    (length_padded (List.length_pos_iff.2 ht) (ofDigits_lt h)) (ofDigits_padded _ _)

/-- A number of a fixed width is read back, whatever follows. -/
theorem digits?_padded_append (hn : 0 < n) (hv : v < 10 ^ n) (rest : Text) :
    digits? n (padded n v ++ rest) = some (v, rest) := by
  have hlen := length_padded hn hv
  have htake : (padded n v ++ rest).take n = padded n v := List.take_left' hlen
  have hdrop : (padded n v ++ rest).drop n = rest := List.drop_left' hlen
  have hdigits : (padded n v).all Char.isDigit = true :=
    List.all_eq_true.2 fun _ hc => isDigit_of_mem_padded hc
  simp only [digits?, htake, hdrop]
  rw [if_pos ⟨hlen, hdigits⟩, ofDigits_padded]

-- ---------------------------------------------------------------------------
-- Fractions
-- ---------------------------------------------------------------------------

/-- The nanoseconds of a fraction are its value, rounded down. -/
theorem nanosOf_eq (h : ∀ c ∈ t, c.isDigit = true) :
    nanosOf t = ofDigits t * 10 ^ 9 / 10 ^ t.length := by
  by_cases hlen : t.length ≤ 9
  · -- zeros are added up to the ninth digit
    obtain ⟨k, hk⟩ := Nat.exists_eq_add_of_le hlen
    have hfill : (t ++ List.replicate 9 '0').take 9 = t ++ List.replicate k '0' := by
      rw [List.take_append, List.take_of_length_le hlen, List.take_replicate]
      congr 2
      omega
    have hzeros : ofDigits (List.replicate k '0') = 0 := by
      rw [ofDigits_eq, Nat.ofDigitChars_replicate_zero, Nat.mul_zero]
    have hpow : ofDigits t * 10 ^ 9 = 10 ^ t.length * (10 ^ k * ofDigits t) := by
      rw [hk, Nat.pow_add]
      ring
    rw [nanosOf, hfill, ofDigits_append, List.length_replicate, hzeros, Nat.add_zero, hpow,
      Nat.mul_div_cancel_left _ (Nat.pow_pos (by decide))]
  · -- the digits behind the ninth one make less than a nanosecond
    have hcut : (t ++ List.replicate 9 '0').take 9 = t.take 9 :=
      List.take_append_of_le_length (by omega)
    have hlast : ofDigits (t.drop 9) < 10 ^ (t.drop 9).length :=
      ofDigits_lt fun c hc => h c (List.mem_of_mem_drop hc)
    have hlength : t.length = 9 + (t.drop 9).length := by
      rw [List.length_drop]
      omega
    have hsplit : ofDigits t = 10 ^ (t.drop 9).length * ofDigits (t.take 9) +
        ofDigits (t.drop 9) := by
      rw [← ofDigits_append, List.take_append_drop]
    have hpos : 0 < 10 ^ (t.drop 9).length := Nat.pow_pos (by decide)
    rw [nanosOf, hcut, hlength, Nat.pow_add, Nat.mul_comm (ofDigits t),
      Nat.mul_div_mul_left _ _ (by decide : 0 < 10 ^ 9), hsplit, Nat.mul_add_div hpos,
      Nat.div_eq_of_lt hlast, Nat.add_zero]

end Jot.Instant
