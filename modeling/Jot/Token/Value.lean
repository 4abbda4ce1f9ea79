import Jot.Bean
import Jot.Cell
import Jot.Event
import Jot.Instant
import Jot.Piece
import Jot.Token.Kind

/-!
# Jot — values

What a token says once its text has been read: a label, an amount, a date, or for the nodes
that stand for several tokens a whole formula, link or reaction.  A value does not depend on
the kind of its token, so a token list may pair any kind with any value.
-/

namespace Jot

-- ---------------------------------------------------------------------------
-- Calls and formulas
-- ---------------------------------------------------------------------------

/-- Whether a call was read without meeting an error token, and if not, the violation of that
token as far as it has one. -/
inductive CallStatus where
  | sound
  | broken (cause : Option Violation)
deriving DecidableEq

mutual

/-- An argument of a call: left out, written down, or itself a call. -/
inductive Arg where
  | skip
  | value (text : Text)
  | call (inner : Call)

/-- A call `(operator argument …)` with the piece of the note it was read from. -/
structure Call extends Piece where
  operator : Option Text
  args : List Arg
  status : CallStatus

end

/-- A formula: an optional name and the call that computes it. -/
structure Formula where
  name : Option Text
  procedure : Option Call

-- ---------------------------------------------------------------------------
-- Links and reactions
-- ---------------------------------------------------------------------------

/-- A link, each part as far as it is written. -/
structure Link where
  href : Option Text
  title : Option Text
  imageSource : Option Text
  imageTitle : Option Text
deriving DecidableEq

/-- The ways to react to a message. -/
inductive ReactionKind where
  | love
  | like
  | dislike
  | laugh
  | question
  | emphasize
deriving DecidableEq

/-- A reaction and the message it is about. -/
structure Reaction where
  reaction : Option ReactionKind
  record : Text
deriving DecidableEq

-- ---------------------------------------------------------------------------
-- Values
-- ---------------------------------------------------------------------------

/-- What a token or a node stands for. -/
inductive Value where
  | text (t : Text)
  | arg (a : Option Text)
  | bean (b : Bean)
  | cell (c : Cell)
  | event (e : Event)
  | date (d : DateValue)
  | error (v : Violation)
  | formula (f : Formula)
  | link (l : Link)
  | reaction (r : Reaction)

/-- The text of a value that is nothing but text. -/
def Value.asText : Value → Option Text
  | text t => some t
  | arg a => a
  | _ => none

end Jot
