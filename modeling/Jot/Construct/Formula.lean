import Jot.Construct.Call

/-!
# Jot — reading formulas

A formula is `$$`, a group with an optional name, and a call: `$$(total) (+ 1 2)`.
-/

namespace Jot

namespace Formula

/-- What was read of the group that holds the name. -/
structure Setup where
  consumed : Nat
  name : Option Text
  closed : Bool
  error : Option Token
  rest : List Token

/-- Reads the group of the name; the first argument with a text is the name. -/
def readSetup (consumed : Nat) (name : Option Text) : List Token → Setup
  | [] => ⟨consumed, name, false, none, []⟩
  | t :: rest =>
    match t.kind with
    | .lparen | .space => readSetup (consumed + 1) name rest
    | .arg => readSetup (consumed + 1) (name.or t.value.asText) rest
    | .rparen => ⟨consumed + 1, name, true, none, rest⟩
    | .error => ⟨consumed + 1, name, false, some t, rest⟩
    | _ => ⟨consumed, name, false, none, t :: rest⟩

/-- Reads the call behind the name, spaces before it included. -/
def readProcedure (consumed : Nat) : List Token → Reading (Option Call)
  | [] => ⟨consumed, none, none⟩
  | t :: rest =>
    match t.kind with
    | .space => readProcedure (consumed + 1) rest
    | .lparen =>
      let call := Call.read (t :: rest)
      ⟨consumed + call.consumed, some call.node, call.error⟩
    | .error => ⟨consumed + 1, none, some t⟩
    | _ => ⟨consumed, none, none⟩

/-- Reads the formula that starts at the front of a token list. -/
def read? (tokens : List Token) : Option (Reading Token) :=
  (afterOpener? .formulaOpen tokens).map fun rest =>
    let setup := readSetup 1 none rest
    let procedure : Reading (Option Call) :=
      if setup.closed then readProcedure setup.consumed setup.rest
      else ⟨setup.consumed, none, setup.error⟩
    Reading.ofTokens .formula (.formula ⟨setup.name, procedure.node⟩) tokens
      procedure.consumed procedure.error

end Formula

end Jot
