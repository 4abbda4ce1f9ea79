import Jot.Text.Basic

/-!
# Jot — recognisers

A recogniser looks at the start of a text and says how many characters belong to it.  The
combinators never take back what a part has taken: `firstOf` settles for the first alternative
that succeeds, `optional` and `many` for as much as there is.  The patterns of `Jot.Pattern`
are written so that this gives the same answer as trying the alternatives in order.
-/

namespace Jot

/-- How many characters at the start of a text are recognised, if any way succeeds. -/
abbrev Recognizer := Text → Option Nat

namespace Recognizer

/-- Takes nothing. -/
def empty : Recognizer := fun _ => some 0

/-- A single character of a class. -/
def one (p : Char → Bool) : Recognizer
  | c :: _ => if p c then some 1 else none
  | [] => none

/-- The characters of `lead`, each in its place. -/
def literal (lead : Text) : Recognizer := fun t =>
  (Text.after? lead t).map fun _ => lead.length

/-- Two characters that are related. -/
def pair (p : Char → Char → Bool) : Recognizer
  | a :: b :: _ => if p a b then some 2 else none
  | _ => none

/-- All leading characters of a class. -/
def many (p : Char → Bool) : Recognizer := fun t => some (t.takeWhile p).length

/-- All leading characters of a class, at least one. -/
def many1 (p : Char → Bool) : Recognizer := fun t =>
  match (t.takeWhile p).length with
  | 0 => none
  | n => some n

/-- At most `n` leading characters of a class. -/
def upTo (n : Nat) (p : Char → Bool) : Recognizer := fun t =>
  some ((t.take n).takeWhile p).length

/-- What `r` takes, or nothing. -/
def optional (r : Recognizer) : Recognizer := fun t => some ((r t).getD 0)

/-- One recogniser after the other. -/
def both (r s : Recognizer) : Recognizer := fun t =>
  (r t).bind fun n => (s (t.drop n)).map (n + ·)

/-- Several recognisers, each where the one before it stopped. -/
def sequence : List Recognizer → Recognizer
  | [] => empty
  | [r] => r
  | r :: rs => both r (sequence rs)

/-- The first of several recognisers that succeeds. -/
def firstOf : List Recognizer → Recognizer
  | [] => fun _ => none
  | r :: rs => fun t => (r t).or (firstOf rs t)

/-- `r`, repeated exactly `n` times. -/
def times : Nat → Recognizer → Recognizer
  | 0, _ => empty
  | n + 1, r => both r (times n r)

-- ---------------------------------------------------------------------------
-- Recognisers stay inside their text
-- ---------------------------------------------------------------------------

/-- A recogniser stays inside its text when it never takes more than there is. -/
def Bounded (r : Recognizer) : Prop := ∀ t n, r t = some n → n ≤ t.length

theorem length_takeWhile_le (p : Char → Bool) (t : Text) : (t.takeWhile p).length ≤ t.length :=
  (List.takeWhile_sublist p).length_le

theorem bounded_empty : Bounded empty := by
  intro t n h
  cases h
  exact Nat.zero_le _

theorem bounded_one (p : Char → Bool) : Bounded (one p) := by
  intro t n h
  cases t with
  | nil => contradiction
  | cons c t =>
    simp only [one] at h
    split at h
    · cases h
      simp
    · contradiction

theorem bounded_literal (lead : Text) : Bounded (literal lead) := by
  intro t n h
  obtain ⟨rest, hrest, rfl⟩ := Option.map_eq_some_iff.1 h
  rw [Text.after?_eq_some_iff] at hrest
  simp [hrest]

theorem bounded_pair (p : Char → Char → Bool) : Bounded (pair p) := by
  intro t n h
  match t with
  | [] | [_] => contradiction
  | a :: b :: t =>
    simp only [pair] at h
    split at h
    · cases h
      simp
    · contradiction

theorem bounded_many (p : Char → Bool) : Bounded (many p) := by
  intro t n h
  cases h
  exact length_takeWhile_le p t

theorem bounded_many1 (p : Char → Bool) : Bounded (many1 p) := by
  intro t n h
  simp only [many1] at h
  split at h
  · contradiction
  · cases h
    exact length_takeWhile_le p t

theorem bounded_upTo (k : Nat) (p : Char → Bool) : Bounded (upTo k p) := by
  intro t n h
  cases h
  exact Nat.le_trans (length_takeWhile_le p _) (List.length_take_le' k t)

theorem bounded_optional {r : Recognizer} (h : Bounded r) : Bounded (optional r) := by
  intro t n hn
  cases hn
  cases hr : r t with
  | none => exact Nat.zero_le _
  | some m => exact h t m hr

theorem bounded_both {r s : Recognizer} (hr : Bounded r) (hs : Bounded s) :
    Bounded (both r s) := by
  intro t n h
  obtain ⟨m, hm, h⟩ := Option.bind_eq_some_iff.1 h
  obtain ⟨k, hk, rfl⟩ := Option.map_eq_some_iff.1 h
  have := hr t m hm
  have := hs _ k hk
  rw [List.length_drop] at this
  omega

theorem bounded_sequence_nil : Bounded (sequence []) := bounded_empty

theorem bounded_sequence_cons {r : Recognizer} {rs : List Recognizer} (hr : Bounded r)
    (hrs : Bounded (sequence rs)) : Bounded (sequence (r :: rs)) := by
  cases rs with
  | nil => exact hr
  | cons s rs => exact bounded_both hr hrs

theorem bounded_firstOf_nil : Bounded (firstOf []) := fun _ _ h => nomatch h

theorem bounded_firstOf_cons {r : Recognizer} {rs : List Recognizer} (hr : Bounded r)
    (hrs : Bounded (firstOf rs)) : Bounded (firstOf (r :: rs)) := by
  intro t n h
  rcases Option.or_eq_some_iff.1 h with h | ⟨-, h⟩
  · exact hr t n h
  · exact hrs t n h

theorem bounded_firstOf_literals (ls : List Text) : Bounded (firstOf (ls.map literal)) := by
  induction ls with
  | nil => exact bounded_firstOf_nil
  | cons l ls ih => exact bounded_firstOf_cons (bounded_literal l) ih

theorem bounded_times {r : Recognizer} (h : Bounded r) (k : Nat) : Bounded (times k r) := by
  induction k with
  | zero => exact bounded_empty
  | succ k ih => exact bounded_both h ih

attribute [grind ←] bounded_empty bounded_one bounded_literal bounded_pair bounded_many
  bounded_many1 bounded_upTo bounded_optional bounded_both bounded_sequence_nil
  bounded_sequence_cons bounded_firstOf_nil bounded_firstOf_cons bounded_times

end Recognizer

end Jot
