/-!
# Jot — ranges of code points

A character class given as a list of closed ranges of code points, as the tables of the
Unicode character database are.
-/

namespace Jot

/-- Closed ranges of code points; each row holds its two ends. -/
abbrev Ranges := List (Nat × Nat)

/-- A character belongs to the class when some row holds its code point. -/
def Ranges.has (rows : Ranges) (c : Char) : Bool :=
  rows.any fun row => decide (row.1 ≤ c.toNat) && decide (c.toNat ≤ row.2)

end Jot
