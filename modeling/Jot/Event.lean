import Jot.Label

/-!
# Jot — events

An event is a point in time, `!launch`, or one end of a range: `!trip…` opens it and `…trip`
closes it.  Three full stops may stand for the ellipsis.
-/

namespace Jot

/-- Which part of a range an event marks, if any. -/
inductive EventForm where
  | opens
  | closes
  | point
deriving DecidableEq

/-- A named event. -/
structure Event where
  label : Text
  form : EventForm
deriving DecidableEq

namespace Event

/-- Whether the event is one end of a range. -/
def isRange (e : Event) : Bool := e.form != .point

/-- The spellings of the ellipsis. -/
def ellipses : List Text := [['…'], ['.', '.', '.']]

/-- Reads an event. -/
def read : Text → Event
  | '!' :: body =>
    match ellipses.findSome? (Text.before? · body) with
    | some label => ⟨Label.content label, .opens⟩
    | none => ⟨Label.content body, .point⟩
  | t => ⟨Label.content ((ellipses.findSome? (Text.after? · t)).getD t), .closes⟩

end Event

end Jot
