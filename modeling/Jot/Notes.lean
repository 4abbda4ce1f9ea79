import Jot.Text.Blank

/-!
# Jot — notes in a text

A text is a single note, or every line of it that is not blank is one.
-/

namespace Jot

namespace Notes

/-- A line without the carriage return that belongs to its line feed. -/
def withoutReturn (line : Text) : Text :=
  if line.getLast? = some '\r' then line.dropLast else line

/-- The lines of a text; what follows the last line feed is no complete line and keeps a
carriage return. -/
def lines (t : Text) : List Text :=
  let pieces := t.splitOn '\n'
  pieces.dropLast.map withoutReturn ++ pieces.getLast?.toList

/-- The notes of a text with the lines at which they start. -/
def split (t : Text) (byLine : Bool) : List (Nat × Text) :=
  if byLine then
    (((lines t).zipIdx 1).filter fun l => !(Text.isBlank l.1)).map Prod.swap
  else [(1, t)]

end Notes

end Jot
