import Jot.Proofs.Expression.Ends
import Jot.Recognizer

/-!
# Jot — recognisers and expressions

A recogniser never takes back what a part has taken.  It computes the preferred match of an
expression all the same (`Recognizer.Computes`), part by part, as long as each sequence of the
expression is settled.

* `Recognizer.Computes.both` — a sequence;
* `Recognizer.computes_many`, `Recognizer.computes_upTo` — repetitions of a character class.
-/

namespace Jot.Recognizer

variable {p q : Char → Bool} {r s u : Recognizer} {rs : List Recognizer} {e f : Regex}

/-- The recogniser takes the preferred match of the expression. -/
def Computes (r : Recognizer) (e : Regex) : Prop := ∀ t, r t = e.match? t

theorem computes_empty : Computes empty .empty := by
  intro t
  rw [Regex.match?, Regex.ends_empty]
  rfl

/-- A class of characters. -/
theorem computes_one (p : Char → Bool) : Computes (one p) (.one p) := by
  intro t
  cases t with
  | nil => rw [Regex.match?, Regex.ends_one_nil]; rfl
  | cons c t => cases hc : p c <;> simp [one, Regex.match?, hc]

theorem computes_optional (h : Computes r e) : Computes (optional r) (.optional e) := by
  intro t
  rw [Regex.optional, Regex.match?_alt, ← computes_empty t, ← h t]
  exact Option.or_some.symm

theorem computes_firstOf_singleton (h : Computes r e) : Computes (firstOf [r]) e := by
  intro t
  rw [← h t]
  exact Option.or_none

/-- The first of several recognisers is preferred to the others. -/
theorem computes_firstOf_cons (hr : Computes r e) (hrs : Computes (firstOf rs) f) :
    Computes (firstOf (r :: rs)) (.alt e f) := by
  intro t
  rw [Regex.match?_alt, ← hr t, ← hrs t]
  rfl

-- ---------------------------------------------------------------------------
-- Sequences
-- ---------------------------------------------------------------------------

/-- A sequence is computed part by part where nothing is won by giving back. -/
theorem Computes.both (hr : Computes r e) (hs : Computes s f) (h : Regex.Settled e f) :
    Computes (both r s) (.seq e f) := by
  intro t
  -- a recogniser never goes back, and here the expression need not either
  rw [Regex.match?_seq h, ← hr t]
  show (r t).bind _ = _
  congr 1
  funext n
  rw [hs]

/-- The last part of a sequence. -/
theorem Computes.last (h : Computes r e) : Computes r (.seq e .empty) := by
  intro t
  rw [h t, Regex.match?, Regex.match?, Regex.ends_seq_empty]

theorem Computes.of_ends_eq (h : Computes r e) (hef : ∀ t, f.ends t = e.ends t) :
    Computes r f := by
  intro t
  rw [h t, Regex.match?, Regex.match?, hef]

/-- Sequences of recognisers can be bracketed in either way. -/
theorem both_assoc (r s u : Recognizer) : both (both r s) u = both r (both s u) := by
  funext t
  show ((r t).bind fun n => (s (t.drop n)).map (n + ·)).bind _ = (r t).bind fun n =>
    ((s (t.drop n)).bind fun m => (u ((t.drop n).drop m)).map (m + ·)).map (n + ·)
  -- the parts are run one after the other on both sides
  cases r t with
  | none => rfl
  | some n =>
    rw [Option.bind_some, Option.bind_some]
    cases s (t.drop n) with
    | none => rfl
    | some m =>
      rw [Option.map_some, Option.bind_some, Option.bind_some, List.drop_drop]
      cases u (t.drop (n + m)) with
      | none => rfl
      | some k => rw [Option.map_some, Option.map_some, Option.map_some, Nat.add_assoc]

theorem both_eq_none {t : Text} (h : r t = none) : both r s t = none := by
  rw [both, h]
  rfl

/-- An expression rejects what its recogniser does not begin with. -/
theorem Computes.rejects (h : Computes r e) (hr : ∀ c t, p c = true → r (c :: t) = none) :
    Regex.Rejects p e :=
  fun c t hc => (h (c :: t)).symm.trans (hr c t hc)

/-- An optional character that cannot begin what follows. -/
theorem computes_optional_one_both (hs : Computes s f)
    (h : ∀ c t, p c = true → s (c :: t) = none) :
    Computes (Recognizer.both (optional (one p)) s) (.seq (.optional (.one p)) f) :=
  (computes_optional (computes_one p)).both hs
    (Regex.settled_of_rejects (Regex.givesBack_optional (Regex.once_one p)) (hs.rejects h))

/-- A character in front of a sequence is never given back. -/
theorem computes_one_both (hs : Computes s f) :
    Computes (Recognizer.both (one p) s) (.seq (.one p) f) :=
  (computes_one p).both hs (Regex.settled_of_definite (Regex.wide_one p).definite)

/-- A mark that can be left out, in front of what does not begin with it. -/
theorem computes_optional_char_both {c : Char} (hs : Computes s f) (h : ∀ t, s (c :: t) = none) :
    Computes (Recognizer.both (optional (one (· == c))) s) (.seq (.optional (.char c)) f) := by
  refine computes_optional_one_both hs fun x t hx => ?_
  obtain rfl : x = c := by simpa using hx
  exact h t

/-- A fixed number of rounds, each of which ends in one place. -/
theorem computes_times (h : Computes r e) (he : Regex.Definite e) (n : Nat) :
    Computes (times n r) (.times n e) := by
  induction n with
  | zero => exact computes_empty
  | succ n ih => exact h.both ih (Regex.settled_of_definite he)

/-- A literal is read character by character. -/
theorem computes_literal (lead : Text) : Computes (literal lead) (.literal lead) := by
  -- by induction on the literal; the recogniser compares it as a whole and the expression does not
  induction lead with
  | nil => exact computes_empty
  | cons x lead ih =>
    intro t
    refine .trans ?_ (computes_one_both (p := (· == x)) ih t)
    cases t with
    | nil => rfl
    | cons c t =>
      show ((if x = c then Text.after? lead t else none).map _) =
        ((if c == x then some 1 else none).bind fun n =>
          ((Text.after? lead ((c :: t).drop n)).map fun _ => lead.length).map (n + ·))
      by_cases hc : x = c
      · rw [if_pos hc, if_pos (beq_iff_eq.2 hc.symm), Option.bind_some, Option.map_map]
        congr 1
        funext a
        exact Nat.add_comm lead.length 1
      · rw [if_neg hc, if_neg (fun h => hc (beq_iff_eq.1 h).symm)]
        rfl

-- ---------------------------------------------------------------------------
-- Repetitions
-- ---------------------------------------------------------------------------

/-- A repetition of a class takes all characters of the class, and prefers that. -/
theorem computes_many (p : Char → Bool) : Computes (many p) (.star (.one p)) := by
  intro t
  induction t with
  | nil =>
    rw [Regex.match?, Regex.ends_star_of_eq_nil (Regex.ends_one_nil p)]
    rfl
  | cons c t ih =>
    cases hc : p c with
    | false =>
      rw [Regex.match?, Regex.ends_star_of_eq_nil (by simp [hc])]
      simp [many, hc]
    | true =>
      rw [Regex.match?, Regex.ends_star_of_eq_singleton (n := 1) (by simp [hc]) Nat.one_pos
        (by simp), List.head?_append, List.head?_map]
      show _ = (((Regex.star (.one p)).match? t).map (1 + ·)).or _
      rw [← ih]
      simp [many, hc, Nat.add_comm]

/-- At least one character of a class. -/
theorem computes_many1 (p : Char → Bool) : Computes (many1 p) (.plus (.one p)) := by
  intro t
  rw [Regex.plus, ← computes_one_both (computes_many p) t]
  cases t with
  | nil => rfl
  | cons c t =>
    cases hc : p c <;> simp [many1, both, one, many, hc, Nat.add_comm]

/-- As many characters of a class as there are, up to a bound. -/
theorem computes_upTo (n : Nat) (p : Char → Bool) : Computes (upTo n p) (.upTo n (.one p)) := by
  induction n with
  | zero => exact computes_empty
  | succ n ih =>
    intro t
    rw [Regex.upTo, ← computes_optional (computes_one_both ih) t]
    cases t with
    | nil => rfl
    | cons c t => cases hc : p c <;> simp [upTo, optional, both, one, hc, Nat.add_comm]

-- ---------------------------------------------------------------------------
-- Two characters
-- ---------------------------------------------------------------------------

/-- Two characters, each of its own class. -/
theorem computes_pair (p q : Char → Bool) :
    Computes (pair fun a b => p a && q b) (.seq (.one p) (.one q)) := by
  intro t
  rw [← computes_one_both (computes_one q) t]
  match t with
  | [] => rfl
  | [c] => cases hc : p c <;> simp [pair, both, one, hc]
  | a :: b :: t => cases ha : p a <;> cases hb : q b <;> simp [pair, both, one, ha, hb]

/-- Two characters that satisfy one of two conditions. -/
theorem computes_pair_or {P Q : Char → Char → Bool} (hP : Computes (pair P) e)
    (hQ : Computes (pair Q) f) : Computes (pair fun a b => P a b || Q a b) (.alt e f) := by
  intro t
  rw [Regex.match?_alt, ← hP t, ← hQ t]
  match t with
  | [] => rfl
  | [c] => rfl
  | a :: b :: t => cases ha : P a b <;> cases hb : Q a b <;> simp [pair, ha, hb]

end Jot.Recognizer
