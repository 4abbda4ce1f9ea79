import Jot.Text.Basic

/-!
# Jot — regular expressions

Regular expressions as the patterns of the lexer are usually written down, with the meaning that
the order of alternatives gives them: `Regex.ends` lists every way in which an expression
matches at the start of a text, the preferred way first.  An alternative is preferred to those
after it, and one more repetition to stopping.  The match of an expression is the first entry of
the list, which need not be the longest.
-/

namespace Jot

/-- A regular expression over characters. -/
inductive Regex where
  | empty
  | one (p : Char → Bool)
  | seq (r s : Regex)
  | alt (r s : Regex)
  /-- Any number of repetitions, as many as possible; none of them is empty. -/
  | star (r : Regex)

namespace Regex

/-- The numbers of characters that an expression can take from the start of a text, in order of
preference. -/
def ends : Regex → Text → List Nat
  | empty, _ => [0]
  | one _, [] => []
  | one p, c :: _ => if p c then [1] else []
  | seq r s, t => (ends r t).flatMap fun n => (ends s (t.drop n)).map (n + ·)
  | alt r s, t => ends r t ++ ends s t
  | star r, t =>
    ((ends r t).flatMap fun n =>
      if _h : 0 < n ∧ n ≤ t.length then (ends (star r) (t.drop n)).map (n + ·) else []) ++ [0]
termination_by r t => (sizeOf r, t.length)

/-- The match of an expression at the start of a text. -/
def match? (r : Regex) (t : Text) : Option Nat := (ends r t).head?

-- ---------------------------------------------------------------------------
-- Derived forms
-- ---------------------------------------------------------------------------

/-- A given character. -/
def char (c : Char) : Regex := one (· == c)

/-- The characters of a text. -/
def literal : Text → Regex
  | [] => empty
  | c :: t => seq (char c) (literal t)

/-- Expressions one after the other. -/
def sequence : List Regex → Regex
  | [] => empty
  | r :: rs => seq r (sequence rs)

/-- The first expression of a list, or the others in their order. -/
def choice (r : Regex) : List Regex → Regex
  | [] => r
  | s :: rs => alt r (choice s rs)

/-- At most one, preferably one. -/
def optional (r : Regex) : Regex := alt r empty

/-- At least one. -/
def plus (r : Regex) : Regex := seq r (star r)

/-- Exactly `n`. -/
def times : Nat → Regex → Regex
  | 0, _ => empty
  | n + 1, r => seq r (times n r)

/-- At most `n`, as many as possible. -/
def upTo : Nat → Regex → Regex
  | 0, _ => empty
  | n + 1, r => optional (seq r (upTo n r))

end Regex

end Jot
