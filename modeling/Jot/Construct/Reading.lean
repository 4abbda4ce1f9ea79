import Jot.Token.Basic

/-!
# Jot — reading constructs

Formulas, links and reactions are runs of tokens.  A reader of such a construct looks at the
front of a token list and answers with a `Reading`: the node, how many tokens it stands for, and
the error token that ended it, if one did.  Readers never fail on what follows their opening
token; they stop in front of the first token that does not belong to them.
-/

namespace Jot

/-- What a reader made of the front of a token list. -/
structure Reading (α : Type) where
  consumed : Nat
  node : α
  error : Option Token

/-- The node of a construct that takes `consumed` tokens from the front of `tokens`. -/
def Reading.ofTokens (kind : TokenKind) (value : Value) (tokens : List Token) (consumed : Nat)
    (error : Option Token) : Reading Token :=
  { consumed, node := Token.synthesize kind value (tokens.take consumed), error }

/-- The tokens behind an opening token of some kind. -/
def afterOpener? (kind : TokenKind) : List Token → Option (List Token)
  | t :: rest => if t.kind = kind then some rest else none
  | [] => none

end Jot
