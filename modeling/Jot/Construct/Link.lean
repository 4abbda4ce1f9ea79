import Jot.Construct.Reading

/-!
# Jot — reading links

A link is `://` and up to two groups of quoted names: the target with its title, and the source
of an image with its title.  The second group is looked for behind spaces, which belong to the
link only if the group is there.
-/

namespace Jot

namespace Link

/-- A link of which nothing is written. -/
def empty : Link := ⟨none, none, none, none⟩

/-- What was read of a group. -/
structure Group where
  consumed : Nat
  link : Link
  closed : Bool
  error : Option Token
  rest : List Token

/-- Reads a group behind its opening parenthesis. -/
def readGroup (consumed : Nat) (l : Link) : List Token → Group
  | [] => ⟨consumed, l, false, none, []⟩
  | t :: rest =>
    match t.kind with
    | .space => readGroup (consumed + 1) l rest
    | .href => readGroup (consumed + 1) { l with href := t.value.asText } rest
    | .title => readGroup (consumed + 1) { l with title := t.value.asText } rest
    | .imageSource => readGroup (consumed + 1) { l with imageSource := t.value.asText } rest
    | .imageTitle => readGroup (consumed + 1) { l with imageTitle := t.value.asText } rest
    | .rparen => ⟨consumed + 1, l, true, none, rest⟩
    | .error => ⟨consumed + 1, l, false, some t, rest⟩
    | _ => ⟨consumed, l, false, none, t :: rest⟩

/-- Reads the first group.  Spaces are passed over to reach it or an error; at the end of the
list they belong to the link. -/
def readSetup (consumed : Nat) (tokens : List Token) : Group :=
  let spaces := (tokens.takeWhile fun t => t.kind = .space).length
  match tokens.drop spaces with
  | [] => ⟨consumed + spaces, empty, false, none, []⟩
  | t :: rest =>
    match t.kind with
    | .lparen => readGroup (consumed + spaces + 1) empty rest
    | .error => ⟨consumed + spaces + 1, empty, false, some t, rest⟩
    | _ => ⟨consumed, empty, false, none, tokens⟩

/-- Reads the second group, if there is one. -/
def readImage (setup : Group) : Group :=
  let spaces := (setup.rest.takeWhile fun t => t.kind = .space).length
  match setup.rest.drop spaces with
  | [] => setup
  | t :: rest =>
    if t.kind = .lparen then readGroup (setup.consumed + spaces + 1) setup.link rest else setup

/-- Reads the link that starts at the front of a token list. -/
def read? (tokens : List Token) : Option (Reading Token) :=
  (afterOpener? .linkOpen tokens).map fun rest =>
    let setup := readSetup 1 rest
    let group := if setup.closed then readImage setup else setup
    Reading.ofTokens .link (.link group.link) tokens group.consumed group.error

end Link

end Jot
