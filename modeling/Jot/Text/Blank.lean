import Jot.Text.Basic

/-!
# Jot — blank characters

A character is *blank* when it has the Unicode property `White_Space`: the ASCII controls from
tab to carriage return, the space and the wider spaces, the two separators, but neither the
information separators U+001C to U+001F nor the zero-width space.
-/

namespace Jot

/-- The property `White_Space`. -/
def isBlank (c : Char) : Bool :=
  let n := c.toNat
  (decide (0x09 ≤ n) && decide (n ≤ 0x0D)) || n == 0x20 || n == 0x85 || n == 0xA0 ||
    n == 0x1680 || (decide (0x2000 ≤ n) && decide (n ≤ 0x200A)) || n == 0x2028 ||
    n == 0x2029 || n == 0x202F || n == 0x205F || n == 0x3000

namespace Text

/-- A text is blank when it has no character but blank ones. -/
def isBlank (t : Text) : Bool := t.all Jot.isBlank

/-- The text without its leading blank characters. -/
def trimStart (t : Text) : Text := t.dropWhile Jot.isBlank

/-- The text without its trailing blank characters. -/
def trimEnd (t : Text) : Text := (t.reverse.dropWhile Jot.isBlank).reverse

/-- The text without blank characters at either end. -/
def trim (t : Text) : Text := trimEnd (trimStart t)

end Text

end Jot
