import Jot.Label
import Jot.Text.Blank

/-!
# Jot — shapes

The recognisers from which the patterns of the lexer are put together: numbers, the parts of a
date, URLs, operators.
-/

namespace Jot.Recognizer

/-- A given character. -/
def char (c : Char) : Recognizer := one (· == c)

/-- A decimal number: digits with or without a fraction, then perhaps an exponent.  A point
belongs to the number only if a digit follows it. -/
def number : Recognizer :=
  sequence [
    firstOf [
      sequence [many Char.isDigit, char '.', many1 Char.isDigit],
      many1 Char.isDigit],
    optional (sequence [
      one fun c => c == 'e' || c == 'E',
      optional (one fun c => c == '+' || c == '-'),
      many1 Char.isDigit])]

/-- A number that may have a minus sign. -/
def signedNumber : Recognizer := both (optional (char '-')) number

/-- The mark of an open end, in either spelling. -/
def ellipsis : Recognizer := firstOf [char '…', literal ['.', '.', '.']]

/-- A two-digit number whose digits satisfy `p`. -/
def twoDigits (p : Nat → Nat → Bool) : Recognizer :=
  pair fun a b => a.isDigit && b.isDigit && p (a.toNat - 48) (b.toNat - 48)

/-- The month `01` to `12`. -/
def monthDigits : Recognizer :=
  twoDigits fun a b => (a == 1 && b ≤ 2) || (a == 0 && 1 ≤ b)

/-- The day `01` to `31`. -/
def dayDigits : Recognizer :=
  twoDigits fun a b => (a == 3 && b ≤ 1) || (a == 0 && 1 ≤ b) || a == 1 || a == 2

/-- The hour `00` to `23`. -/
def hourDigits : Recognizer :=
  twoDigits fun a b => (a == 2 && b ≤ 3) || a ≤ 1

/-- The minute or second `00` to `59`. -/
def minuteDigits : Recognizer := twoDigits fun a _ => a ≤ 5

/-- A day; dashes may be left out. -/
def dayOfCalendar : Recognizer :=
  sequence [
    times 4 (one Char.isDigit), optional (char '-'), monthDigits, optional (char '-'), dayDigits]

/-- Hour and minute, then perhaps seconds; colons may be left out. -/
def clock : Recognizer :=
  sequence [
    hourDigits, optional (char ':'), minuteDigits, optional (char ':'), optional minuteDigits]

/-- The time of a date, perhaps with a fraction and a zone mark. -/
def timeOfDay : Recognizer :=
  sequence [
    optional (one fun c => isBlank c || c == 'T'), clock,
    optional (both (char '.') (many1 Char.isDigit)), optional (char 'Z')]

/-- A date, perhaps with a time. -/
def dateTime : Recognizer := both dayOfCalendar (optional timeOfDay)

/-- The verbs that open a reaction. -/
def reactionVerbs : List Text :=
  ["Loved", "Liked", "Disliked", "Laughed at", "Emphasized", "Questioned"].map String.toList

/-- A verb and the opening quote. -/
def reactionOpener : Recognizer :=
  both (firstOf (reactionVerbs.map literal)) (literal [' ', '“'])

/-- Characters of a scheme after its first letter. -/
def isSchemeTail (c : Char) : Bool :=
  c.isAlphanum || c == '+' || c == '.' || c == '-'

/-- Characters of a URL after its scheme. -/
def isUrlChar (c : Char) : Bool :=
  c.isAlphanum || "-._~:/?#[]@!$&'()*+,;=%".toList.contains c

/-- A URL, with a scheme or beginning with `www.`. -/
def webAddress : Recognizer :=
  firstOf [
    sequence [one Char.isAlpha, many isSchemeTail, literal [':', '/', '/'], many1 isUrlChar],
    sequence [literal ['w', 'w', 'w', '.'], many1 isUrlChar]]

/-- Characters of an operator. -/
def isOperatorChar (c : Char) : Bool := !(isBlank c) && c != '(' && c != ')'

/-- The number of characters that may follow the first one of an operator. -/
def operatorTailLimit : Nat := 41

/-- An operator: anything up to a blank or a parenthesis, if it is not too long. -/
def operatorName : Recognizer :=
  both (one isOperatorChar) (upTo operatorTailLimit isOperatorChar)

/-- The body of a reaction: the text up to the closing quote or, when there is none, all but
the last character. -/
def quotedBody : Recognizer := fun t =>
  if t.contains '”' then some (t.takeWhile (· != '”')).length else some (t.length - 1)

-- ---------------------------------------------------------------------------
-- The shapes stay inside their text
-- ---------------------------------------------------------------------------

theorem bounded_char (c : Char) : Bounded (char c) := bounded_one _

theorem bounded_number : Bounded number := by grind [number, char]

theorem bounded_signedNumber : Bounded signedNumber := by
  grind [signedNumber, char, bounded_number]

theorem bounded_twoDigits (p : Nat → Nat → Bool) : Bounded (twoDigits p) := bounded_pair _

theorem bounded_dayOfCalendar : Bounded dayOfCalendar :=
  have dash : Bounded (optional (char '-')) := bounded_optional (bounded_one _)
  bounded_sequence_cons (bounded_times (bounded_one _) 4) <|
    bounded_sequence_cons dash <| bounded_sequence_cons (bounded_twoDigits _) <|
    bounded_sequence_cons dash <| bounded_sequence_cons (bounded_twoDigits _) bounded_sequence_nil

theorem bounded_clock : Bounded clock :=
  have colon : Bounded (optional (char ':')) := bounded_optional (bounded_one _)
  bounded_sequence_cons (bounded_twoDigits _) <|
    bounded_sequence_cons colon <| bounded_sequence_cons (bounded_twoDigits _) <|
    bounded_sequence_cons colon <|
    bounded_sequence_cons (bounded_optional (bounded_twoDigits _)) bounded_sequence_nil

theorem bounded_timeOfDay : Bounded timeOfDay := by
  grind [timeOfDay, char, bounded_clock]

theorem bounded_dateTime : Bounded dateTime :=
  bounded_both bounded_dayOfCalendar (bounded_optional bounded_timeOfDay)

theorem bounded_webAddress : Bounded webAddress :=
  bounded_firstOf_cons (by grind) (bounded_firstOf_cons (by grind) bounded_firstOf_nil)

theorem bounded_operatorName : Bounded operatorName := by grind [operatorName]

theorem bounded_ellipsis : Bounded ellipsis := by grind [ellipsis, char]

theorem bounded_reactionOpener : Bounded reactionOpener :=
  bounded_both (bounded_firstOf_literals _) (bounded_literal _)

theorem bounded_quotedBody : Bounded quotedBody := by
  intro t n h
  unfold quotedBody at h
  split at h <;> cases h
  · exact length_takeWhile_le _ t
  · exact Nat.sub_le _ _

attribute [grind ←] bounded_char bounded_number bounded_signedNumber bounded_ellipsis

end Jot.Recognizer
