import Jot.Construct.Formula
import Jot.Construct.Link
import Jot.Construct.Reaction
import Jot.Log

/-!
# Jot — records

A record is what a note says, sorted by kind.  The token list is first cut into *nodes*: every
formula, link and reaction becomes one node, and every other token is a node by itself
(`nodes`).  Each field of the record then lists the nodes that belong to it, in the order of the
note (`Record.assemble`).
-/

namespace Jot

/-- An entry of a record: a value and where it was read. -/
structure Capture (α : Type) extends Piece where
  kind : TokenKind
  value : α
  error : Option Violation

/-- A value read from a token. -/
def Capture.ofToken {α : Type} (t : Token) (value : α) (error : Option Violation) : Capture α :=
  { toPiece := t.toPiece, kind := t.kind, value, error }

/-- What a note says. -/
structure Record where
  date : Option (Capture DateValue)
  pin : Option (Capture Text)
  todo : Option (Capture Text)
  done : Option (Capture Text)
  reaction : Option (Capture Reaction)
  folder : List (Capture Text)
  tag : List (Capture Text)
  mention : List (Capture Text)
  event : List (Capture Event)
  url : List (Capture Text)
  bean : List (Capture Bean)
  cell : List (Capture Cell)
  link : List (Capture Link)
  formula : List (Capture Formula)
  error : List (Capture Violation)
  /-- The whole note. -/
  text : Text
  /-- The note without its header, trimmed. -/
  body : Text
  /-- The nodes of the note, neighbouring plain text merged. -/
  chunks : List (Capture Value)

-- ---------------------------------------------------------------------------
-- Nodes
-- ---------------------------------------------------------------------------

/-- A token that stands by itself or for a whole construct, with the error token that ended the
construct. -/
structure Node where
  token : Token
  error : Option Token

namespace Node

/-- The violation that ended the construct. -/
def violation (n : Node) : Option Violation := n.error.bind Token.violation

/-- An entry for the value of a node. -/
def capture {α : Type} (n : Node) (value : α) : Capture α :=
  Capture.ofToken n.token value n.violation

/-- The construct that the first of some tokens opens. -/
def construct? (tokens : List Token) : Option (Reading Token) :=
  match tokens with
  | [] => none
  | t :: _ =>
    match t.kind with
    | .formulaOpen => Formula.read? tokens
    | .linkOpen => Link.read? tokens
    | .reactionOpen => Reaction.read? tokens
    | _ => none

/-- Cuts a token list into nodes, behind those in `acc`, which are kept latest first. -/
def cut (acc : List Node) : List Token → List Node
  | [] => acc.reverse
  | t :: rest =>
    match construct? (t :: rest) with
    | some r => cut (⟨r.node, r.error⟩ :: acc) (rest.drop (r.consumed - 1))
    | none => cut (⟨t, none⟩ :: acc) rest
termination_by tokens => tokens.length
decreasing_by
  · simp only [List.length_drop, List.length_cons]; omega
  · simp

/-- The nodes that come after do not depend on those before. -/
theorem cut_eq_reverse_append (acc : List Node) (tokens : List Token) :
    cut acc tokens = acc.reverse ++ cut [] tokens := by
  cases tokens with
  | nil => simp [cut]
  | cons t rest =>
    rw [cut, cut]
    split
    · next r _ =>
      rw [cut_eq_reverse_append (_ :: acc) (rest.drop (r.consumed - 1)),
        cut_eq_reverse_append [_] (rest.drop (r.consumed - 1))]
      simp
    · rw [cut_eq_reverse_append (_ :: acc) rest, cut_eq_reverse_append [_] rest]
      simp
termination_by tokens.length
decreasing_by all_goals simp only [List.length_drop, List.length_cons]; omega

/-- The text value of a node of some kind. -/
def textOf (kind : TokenKind) (n : Node) : Option (Capture Text) :=
  match n.token.value with
  | .text t => if n.token.kind = kind then some (n.capture t) else none
  | _ => none

/-- The entry of a node that holds a date. -/
def date? (n : Node) : Option (Capture DateValue) :=
  match n.token.value with
  | .date d => some (n.capture d)
  | _ => none

/-- The entry of a node that holds a bean. -/
def bean? (n : Node) : Option (Capture Bean) :=
  match n.token.value with
  | .bean b => some (n.capture b)
  | _ => none

/-- The entry of a node that holds a cell. -/
def cell? (n : Node) : Option (Capture Cell) :=
  match n.token.value with
  | .cell c => some (n.capture c)
  | _ => none

/-- The entry of a node that holds an event. -/
def event? (n : Node) : Option (Capture Event) :=
  match n.token.value with
  | .event e => some (n.capture e)
  | _ => none

/-- The entry of a node that holds a link. -/
def link? (n : Node) : Option (Capture Link) :=
  match n.token.value with
  | .link l => some (n.capture l)
  | _ => none

/-- The entry of a node that holds a formula. -/
def formula? (n : Node) : Option (Capture Formula) :=
  match n.token.value with
  | .formula f => some (n.capture f)
  | _ => none

/-- The entry of a node that holds a reaction. -/
def reaction? (n : Node) : Option (Capture Reaction) :=
  match n.token.value with
  | .reaction r => some (n.capture r)
  | _ => none

/-- An entry for the violation that a token holds. -/
def violationOf (t : Token) : Option (Capture Violation) :=
  t.violation.map fun v => Capture.ofToken t v none

/-- The violations of a node: first the one that ended the construct, then its own. -/
def violations (n : Node) : List (Capture Violation) :=
  (n.error.bind violationOf).toList ++ (violationOf n.token).toList

/-- The report on a construct that an error ended. -/
def log (n : Node) : List LogLine :=
  match n.error with
  | some e => [.bubbled n.token.kind e.offset]
  | none => []

end Node

/-- The nodes of a token list. -/
def nodes (tokens : List Token) : List Node := Node.cut [] tokens

@[simp] theorem nodes_nil : nodes [] = [] := by simp [nodes, Node.cut]

/-- A construct becomes one node, and reading goes on behind it. -/
theorem nodes_cons_of_construct {t : Token} {rest : List Token} {r : Reading Token}
    (h : Node.construct? (t :: rest) = some r) :
    nodes (t :: rest) = ⟨r.node, r.error⟩ :: nodes (rest.drop (r.consumed - 1)) := by
  rw [nodes, Node.cut, h]
  exact Node.cut_eq_reverse_append [_] _

/-- A token that opens no construct is a node by itself. -/
theorem nodes_cons_of_plain {t : Token} {rest : List Token}
    (h : Node.construct? (t :: rest) = none) : nodes (t :: rest) = ⟨t, none⟩ :: nodes rest := by
  rw [nodes, Node.cut, h]
  exact Node.cut_eq_reverse_append [_] _

-- ---------------------------------------------------------------------------
-- Chunks
-- ---------------------------------------------------------------------------

/-- A run of plain text as one chunk; a chunk that stands alone is kept as it is. -/
def Capture.merge (first : Capture Value) (others : List (Capture Value)) : Capture Value :=
  { first with
    toPiece := Piece.join (first.toPiece :: others.map Capture.toPiece)
    value :=
      match first.value with
      | .text t => .text (t ++ others.flatMap (·.text))
      | v => v }

/-- Merges neighbouring words and spaces. -/
def mergePlainText (captures : List (Capture Value)) : List (Capture Value) :=
  (captures.splitBy fun a b => a.kind.isPlainText && b.kind.isPlainText).filterMap fun run =>
    match run with
    | [] => none
    | first :: others => some (first.merge others)

-- ---------------------------------------------------------------------------
-- The record
-- ---------------------------------------------------------------------------

namespace Record

/-- The record of a list of nodes.  A field that can hold one entry keeps the last. -/
def ofNodes (ns : List Node) : Record :=
  { date := (ns.filterMap Node.date?).getLast?
    pin := (ns.filterMap (Node.textOf .pin)).getLast?
    todo := (ns.filterMap (Node.textOf .todo)).getLast?
    done := (ns.filterMap (Node.textOf .done)).getLast?
    reaction := (ns.filterMap Node.reaction?).getLast?
    folder := ns.filterMap (Node.textOf .folder)
    tag := ns.filterMap (Node.textOf .tag)
    mention := ns.filterMap (Node.textOf .mention)
    event := ns.filterMap Node.event?
    url := ns.filterMap (Node.textOf .url)
    bean := ns.filterMap Node.bean?
    cell := ns.filterMap Node.cell?
    link := ns.filterMap Node.link?
    formula := ns.filterMap Node.formula?
    error := ns.flatMap Node.violations
    text := ns.flatMap (·.token.text)
    body := Text.trim ((ns.filter (!·.token.kind.isHeader)).flatMap (·.token.text))
    chunks := mergePlainText (ns.map fun n => n.capture n.token.value) }

/-- The record of a token list. -/
def assemble (tokens : List Token) : Record := ofNodes (nodes tokens)

/-- Whether anything is wrong with the note. -/
def hasErrors (r : Record) : Bool := !r.error.isEmpty

/-- Whether the note has a date that is on the calendar. -/
def isDated (r : Record) : Bool := (r.date.bind (·.value.instant?)).isSome

end Record

/-- What the assembler reports about a token list. -/
def assemblyLog (tokens : List Token) : List LogLine := (nodes tokens).flatMap Node.log

/-- The record of a note. -/
def parse (k : Keywords) (t : Text) : Record := Record.assemble (tokenize k t)

end Jot
