import Jot.Token.Value

/-!
# Jot — tokens

A token is a piece of a note with a kind and a value.  Nodes for formulas, links and reactions
are tokens as well, made from the tokens they replace (`Token.synthesize`).
-/

namespace Jot

/-- A piece of a note, what it is, and what it says. -/
structure Token extends Piece where
  kind : TokenKind
  value : Value

namespace Token

/-- The violation that a token holds, if it holds one. -/
def violation (t : Token) : Option Violation :=
  match t.value with
  | .error v => some v
  | _ => none

/-- A node in place of a run of tokens. -/
def synthesize (kind : TokenKind) (value : Value) (parts : List Token) : Token :=
  { toPiece := Piece.join (parts.map Token.toPiece), kind, value }

end Token

end Jot
