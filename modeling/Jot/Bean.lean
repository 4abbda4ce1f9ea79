import Jot.Label

/-!
# Jot — beans

A bean is a signed amount of something: `+coffee:2`, `-"Green Tea"`.  The amount is kept as it
is written.
-/

namespace Jot

/-- Whether a bean adds or takes away. -/
inductive Sign where
  | plus
  | minus
deriving DecidableEq

/-- A signed amount of a symbol. -/
structure Bean where
  sign : Sign
  symbol : Text
  value : Text
deriving DecidableEq

/-- Reads a bean; without an amount it counts as one. -/
def Bean.read (t : Text) : Bean :=
  let (symbol, rest) := Label.split (· == ':') (t.drop 1)
  { sign := if t.head? = some '-' then .minus else .plus
    symbol
    value :=
      match rest with
      | ':' :: c :: amount => c :: amount
      | _ => ['1'] }

end Jot
