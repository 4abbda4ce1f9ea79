import Jot.Label

/-!
# Jot — cells

A cell is a measurement with an optional unit: `%weight:72.5,kg`, `%mood`, `%"Room Temp",c`.
-/

namespace Jot

/-- A measurement of a symbol. -/
structure Cell where
  symbol : Text
  value : Text
  unit : Option Text
deriving DecidableEq

namespace Cell

/-- The measured value as it is written after the symbol: one without a colon, zero when
nothing follows the colon. -/
def valueOf : Text → Text
  | [':'] => ['0']
  | ':' :: amount => amount
  | _ => ['1']

/-- Reads a cell; the unit is the label after the first comma behind the symbol. -/
def read (t : Text) : Cell :=
  let (symbol, rest) := Label.split (fun c => c == ':' || c == ',') (t.drop 1)
  { symbol
    value := valueOf (rest.takeWhile (· != ','))
    unit :=
      match rest.dropWhile (· != ',') with
      | [] => none
      | _ :: unit => some (Label.content unit) }

end Cell

end Jot
