import Jot.Text.Quoted
import Jot.Text.Lowercase

/-!
# Jot — labels

A label names a tag, a person, a symbol, a folder, an event or a unit.  It is either quoted,
and then kept as it is written, or *bare*: up to nineteen letters, digits, dashes, underscores,
currency signs and characters from U+1000 on, the first of them no digit, dash or underscore.
Bare labels do not depend on case and are kept in lower case.
-/

namespace Jot

namespace Label

/-- Characters that a bare label may start with. -/
def isLead (c : Char) : Bool :=
  let n := c.toNat
  decide (0x1000 ≤ n) || c.isAlpha || c == '$' || (decide (0xA2 ≤ n) && decide (n ≤ 0xA5)) ||
    n == 0x58F || n == 0x60B || n == 0x9F2 || n == 0x9F3 || n == 0x9FB || n == 0xAF1 ||
    n == 0xBF9 || n == 0xE3F

/-- Characters that may follow in a bare label. -/
def isTail (c : Char) : Bool :=
  isLead c || c.isDigit || c == '-' || c == '_'

/-- The number of characters that may follow the first one. -/
def tailLimit : Nat := 18

/-- A label without quotes. -/
def bare : Recognizer := .both (.one isLead) (.upTo tailLimit isTail)

/-- A label in either form. -/
def recognize : Recognizer := .firstOf [Quoted.inline, bare]

theorem bounded_recognize : Recognizer.Bounded recognize :=
  Recognizer.bounded_firstOf_cons (Quoted.bounded_nameOf _) (by grind [bare])

/-- What a label stands for. -/
def content (t : Text) : Text := if t.isQuoted then t.dequote else t.lowercase

/-- Splits the label off the front of `t`: a quoted name, or else everything up to the first
character of `stop`.  The second part is what follows the label. -/
def split (stop : Char → Bool) (t : Text) : Text × Text :=
  match Quoted.name t with
  | some n => (Text.dequote (t.take n), t.drop n)
  | none => (Text.lowercase (t.takeWhile (!stop ·)), t.dropWhile (!stop ·))

end Label

end Jot
