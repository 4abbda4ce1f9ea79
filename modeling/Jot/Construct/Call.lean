import Jot.Construct.Reading
import Jot.Token.Decode

/-!
# Jot — reading calls

A call is read from its opening parenthesis to the one that closes it.  The reader passes the
tokens once and keeps the calls that are still open on a stack of frames, innermost first; an
error token ends all of them, and so does the end of the list or a token that has no place in a
call.
-/

namespace Jot

/-- A call that is still open: where it started and what was read of it, latest first. -/
structure Frame where
  place : Place
  pieces : List Piece
  operator : Option Text
  args : List Arg

namespace Frame

/-- A call of which nothing has been read. -/
def start (p : Place) : Frame := ⟨p, [], none, []⟩

/-- The text of a token belongs to the call. -/
def absorb (f : Frame) (p : Piece) : Frame := { f with pieces := p :: f.pieces }

/-- The frame behind an opening parenthesis. -/
def enter (t : Token) : Frame := (start t.toPlace).absorb t.toPiece

/-- The first operator that has a text counts. -/
def withOperator (f : Frame) (v : Value) : Frame := { f with operator := f.operator.or v.asText }

/-- One more argument. -/
def withArg (f : Frame) (a : Arg) : Frame := { f with args := a :: f.args }

/-- The call as far as it was read. -/
def finish (f : Frame) (status : CallStatus) : Call :=
  { toPiece := { Piece.join f.pieces.reverse with toPlace := f.place }
    operator := f.operator
    args := f.args.reverse
    status }

/-- A call that has ended becomes an argument of the call around it. -/
def receive (f : Frame) (c : Call) : Frame := (f.absorb c.toPiece).withArg (.call c)

/-- The outermost call when all open calls end in the same way. -/
def finishAll (status : CallStatus) (f : Frame) : List Frame → Call
  | [] => f.finish status
  | g :: outer => finishAll status (g.receive (f.finish status)) outer

end Frame

namespace Call

/-- Reads on with the innermost open call `f`, the calls around it, and the number of tokens
that have been taken so far. -/
def readFrom (consumed : Nat) (f : Frame) (outer : List Frame) : List Token → Reading Call
  | [] => ⟨consumed, Frame.finishAll .sound f outer, none⟩
  | t :: rest =>
    match t.kind with
    | .lparen => readFrom (consumed + 1) (Frame.enter t) (f :: outer) rest
    | .rparen =>
      let c := (f.absorb t.toPiece).finish .sound
      match outer with
      | [] => ⟨consumed + 1, c, none⟩
      | g :: outer => readFrom (consumed + 1) (g.receive c) outer rest
    | .operator =>
      readFrom (consumed + 1) ((f.withOperator t.value).absorb t.toPiece) outer rest
    | .arg =>
      readFrom (consumed + 1) ((f.withArg (Decode.callArg t.value)).absorb t.toPiece) outer rest
    | .space => readFrom (consumed + 1) (f.absorb t.toPiece) outer rest
    | .error =>
      ⟨consumed + 1, Frame.finishAll (.broken t.violation) (f.absorb t.toPiece) outer, some t⟩
    | _ => ⟨consumed, Frame.finishAll .sound f outer, none⟩

/-- Reads the call at the front of a token list.  A list that does not begin with a parenthesis
is read as if one stood before it. -/
def read : List Token → Reading Call
  | [] => readFrom 0 (Frame.start Place.start) [] []
  | t :: rest =>
    if t.kind = .lparen then readFrom 1 (Frame.enter t) [] rest
    else readFrom 0 (Frame.start t.toPlace) [] (t :: rest)

end Call

end Jot
