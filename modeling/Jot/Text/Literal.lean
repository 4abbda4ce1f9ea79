import Jot.Text.Basic
import Jot.Text.Unprintable

/-!
# Jot — quoted literals

How a text is shown in a message: between quotes, with the characters that would not be seen,
or would not be seen apart from their neighbours, written as escapes.
-/

namespace Jot

/-- Whether a character is shown as itself. -/
def isShown (c : Char) : Bool :=
  if c.toNat < 0x7F then decide (0x20 ≤ c.toNat) else !unprintableRanges.has c

/-- The escape by code point, in lower case hexadecimal without padding. -/
def hexEscape (c : Char) : Text :=
  ['\\', 'u', '\x7b'] ++ Nat.toDigits 16 c.toNat ++ ['\x7d']

/-- One character of a literal. -/
def literalChar (c : Char) : Text :=
  if c = '\t' then ['\\', 't']
  else if c = '\r' then ['\\', 'r']
  else if c = '\n' then ['\\', 'n']
  else if c = '\x00' then ['\\', '0']
  else if c = '\\' ∨ c = '"' then ['\\', c]
  else if isShown c then [c]
  else hexEscape c

/-- A text between double quotes; an apostrophe stands for itself. -/
def Text.literal (t : Text) : Text := '"' :: t.flatMap literalChar ++ ['"']

end Jot
