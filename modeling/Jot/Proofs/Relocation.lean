import Jot.Proofs.Annotations
import Jot.Proofs.Call.Level
import Jot.Proofs.Ownership

/-!
# Jot — reading and places

What tokens are read as does not depend on where they stand.  Moved to other places, in whatever
way, they make the same calls, constructs, nodes and entries, which stand at the moved places.

* `Call.Level.relocate` — calls, level by level;
* `Construct.read?_relocate` — constructs;
* `nodes_relocate`, `Record.besidesText_assemble_relocate` — nodes, and the record but for the text
  and the chunks.
-/

namespace Jot

-- ---------------------------------------------------------------------------
-- Moving places
-- ---------------------------------------------------------------------------

/-- The piece, at another place. -/
def Piece.relocate (σ : Place → Place) (p : Piece) : Piece := { p with toPlace := σ p.toPlace }

mutual

/-- The call, and the calls inside it, at other places. -/
def Call.relocate (σ : Place → Place) : Call → Call
  | ⟨piece, operator, args, status⟩ =>
    ⟨piece.relocate σ, operator, Arg.relocateAll σ args, status⟩

/-- An argument that is a call moves with it. -/
def Arg.relocate (σ : Place → Place) : Arg → Arg
  | .skip => .skip
  | .value t => .value t
  | .call c => .call (c.relocate σ)

/-- The arguments of a call, in order. -/
def Arg.relocateAll (σ : Place → Place) : List Arg → List Arg
  | [] => []
  | a :: rest => a.relocate σ :: Arg.relocateAll σ rest

end

def Formula.relocate (σ : Place → Place) (f : Formula) : Formula :=
  { f with procedure := f.procedure.map (Call.relocate σ) }

/-- Of the values, only formulas hold places: those of their calls. -/
def Value.relocate (σ : Place → Place) : Value → Value
  | .formula f => .formula (f.relocate σ)
  | v => v

/-- The token, and the calls in its value, at other places. -/
def Token.relocate (σ : Place → Place) (t : Token) : Token :=
  { t with toPlace := σ t.toPlace, value := t.value.relocate σ }

def Reading.relocate {α : Type} (σ : Place → Place) (move : α → α) (r : Reading α) : Reading α :=
  ⟨r.consumed, move r.node, r.error.map (Token.relocate σ)⟩

def Node.relocate (σ : Place → Place) (n : Node) : Node :=
  ⟨n.token.relocate σ, n.error.map (Token.relocate σ)⟩

/-- The entry at another place; `move` says what becomes of its value. -/
def Capture.relocate {α : Type} (σ : Place → Place) (move : α → α) (e : Capture α) : Capture α :=
  { e with toPlace := σ e.toPlace, value := move e.value }

/-- The record, all its entries and the calls in its formulas at other places. -/
def Record.relocate (σ : Place → Place) (r : Record) : Record :=
  { date     := r.date.map (Capture.relocate σ id)
    pin      := r.pin.map (Capture.relocate σ id)
    todo     := r.todo.map (Capture.relocate σ id)
    done     := r.done.map (Capture.relocate σ id)
    reaction := r.reaction.map (Capture.relocate σ id)
    folder   := r.folder.map (Capture.relocate σ id)
    tag      := r.tag.map (Capture.relocate σ id)
    mention  := r.mention.map (Capture.relocate σ id)
    event    := r.event.map (Capture.relocate σ id)
    url      := r.url.map (Capture.relocate σ id)
    bean     := r.bean.map (Capture.relocate σ id)
    cell     := r.cell.map (Capture.relocate σ id)
    link     := r.link.map (Capture.relocate σ id)
    formula  := r.formula.map (Capture.relocate σ (Formula.relocate σ))
    error    := r.error.map (Capture.relocate σ id)
    text     := r.text
    body     := r.body
    chunks   := r.chunks.map (Capture.relocate σ (Value.relocate σ)) }

variable {σ : Place → Place} {t : Token} {ts taken rest : List Token} {v : Value}

namespace Value

@[simp] theorem asText_relocate (v : Value) : (v.relocate σ).asText = v.asText := by
  cases v <;> rfl

end Value

namespace Token

@[simp] theorem kind_relocate (t : Token) : (t.relocate σ).kind = t.kind := rfl

@[simp] theorem text_relocate (t : Token) : (t.relocate σ).text = t.text := rfl

@[simp] theorem asText_relocate (t : Token) : (t.relocate σ).value.asText = t.value.asText :=
  t.value.asText_relocate

@[simp] theorem violation_relocate (t : Token) : (t.relocate σ).violation = t.violation := by
  unfold violation relocate
  cases t.value <;> rfl

/-- Only the place of a token of the lexer moves. -/
theorem Decoded.relocate_eq (h : t.Decoded) :
    t.relocate σ = { t with toPlace := σ t.toPlace } := by
  have hvalue : t.value.relocate σ = t.value := by
    cases h with
    | value hkind hvalue =>
      rw [hvalue]
      -- what the lexer decodes is never a formula
      cases t.kind <;> rfl
    | violation v _ hvalue => rw [hvalue]; rfl
  rw [relocate, hvalue]

end Token

/-- Arguments move one by one. -/
theorem Arg.relocateAll_eq_map (args : List Arg) :
    Arg.relocateAll σ args = args.map (Arg.relocate σ) := by
  induction args with
  | nil => rfl
  | cons a args ih => rw [relocateAll, ih, List.map_cons]

/-- The text of joined pieces does not depend on where they are. -/
theorem Piece.text_join_relocate (ps : List Piece) :
    (Piece.join (ps.map (Piece.relocate σ))).text = (Piece.join ps).text :=
  List.flatMap_map ..

theorem Piece.lineBreaks_join_relocate (ps : List Piece) :
    (Piece.join (ps.map (Piece.relocate σ))).lineBreaks = (Piece.join ps).lineBreaks :=
  total_map ..

/-- Pieces that are moved and joined stand in the moved place of the first one. -/
theorem Piece.join_cons_relocate (p : Piece) (ps : List Piece) :
    Piece.join ((p :: ps).map (Piece.relocate σ)) = (Piece.join (p :: ps)).relocate σ := by
  have htext := Piece.text_join_relocate (σ := σ) (p :: ps)
  have hlines := Piece.lineBreaks_join_relocate (σ := σ) (p :: ps)
  calc
    Piece.join ((p :: ps).map (Piece.relocate σ)) =
        ⟨σ p.toPlace, (Piece.join ((p :: ps).map (Piece.relocate σ))).text,
          (Piece.join ((p :: ps).map (Piece.relocate σ))).lineBreaks⟩ := rfl
    _ = (Piece.join (p :: ps)).relocate σ := by rw [htext, hlines]; rfl

-- ---------------------------------------------------------------------------
-- Calls
-- ---------------------------------------------------------------------------

/-- The open call and what was read of it at other places. -/
def Frame.relocate (σ : Place → Place) (f : Frame) : Frame :=
  ⟨σ f.place, f.pieces.map (Piece.relocate σ), f.operator, f.args.map (Arg.relocate σ)⟩

namespace Frame

theorem relocate_enter (t : Token) : (enter t).relocate σ = enter (t.relocate σ) := rfl

theorem relocate_absorb (f : Frame) (p : Piece) :
    (f.absorb p).relocate σ = (f.relocate σ).absorb (p.relocate σ) := rfl

/-- A call that is received may be moved before or after that. -/
theorem relocate_receive (f : Frame) (c : Call) :
    (f.receive c).relocate σ = (f.relocate σ).receive (c.relocate σ) := by
  cases c
  rfl

/-- A token may be added before or after the call is moved. -/
theorem relocate_add (f : Frame) (t : Token) :
    (f.add t).relocate σ = (f.relocate σ).add (t.relocate σ) := by
  -- an argument that is read from a token is no call, so it has no place
  have harg : Arg.relocate σ (Decode.callArg t.value) =
      Decode.callArg (t.relocate σ).value := by
    unfold Decode.callArg
    rw [t.asText_relocate]
    cases t.value.asText <;> rfl
  unfold add
  rw [t.kind_relocate]
  split
  · rw [relocate_absorb]
    simp [withOperator, relocate, absorb]
    rfl
  · rw [relocate_absorb, withArg, withArg, ← harg]
    rfl
  · rfl

/-- A call may be moved before or after it ends. -/
theorem relocate_finish (f : Frame) (status : CallStatus) :
    (f.finish status).relocate σ = (f.relocate σ).finish status := by
  have hpieces : (f.relocate σ).pieces.reverse = f.pieces.reverse.map (Piece.relocate σ) :=
    List.map_reverse.symm
  have hargs : (f.relocate σ).args.reverse = f.args.reverse.map (Arg.relocate σ) :=
    List.map_reverse.symm
  simp only [finish, Call.relocate, Piece.relocate, hpieces, hargs, Piece.text_join_relocate,
    Piece.lineBreaks_join_relocate, Arg.relocateAll_eq_map]
  rfl

end Frame

namespace Call

def Ending.relocate (σ : Place → Place) : Ending → Ending
  | closed => .closed
  | cut e => .cut (e.map (Token.relocate σ))

theorem Ending.error_relocate (e : Ending) :
    (e.relocate σ).error = e.error.map (Token.relocate σ) := by
  cases e <;> rfl

variable {f : Frame} {c : Call} {e : Ending}

/-- Level by level, the same is read at other places. -/
theorem Level.relocate (h : Level f taken rest c e) (σ : Place → Place) :
    Level (f.relocate σ) (taken.map (Token.relocate σ)) (rest.map (Token.relocate σ))
      (c.relocate σ) (e.relocate σ) := by
  -- one case for each way to read on: the rule that was used is used again
  induction h with
  | stop f =>
    rw [f.relocate_finish]
    exact .stop _
  | foreign f rest hk =>
    rw [f.relocate_finish]
    exact .foreign _ _ hk
  | error f rest hk =>
    rw [Frame.relocate_finish, f.relocate_absorb]
    have hlevel :=
      Level.error (f.relocate σ) (t := Token.relocate σ _) (rest.map (Token.relocate σ)) hk
    rw [Token.violation_relocate] at hlevel
    exact hlevel
  | close f rest hk =>
    rw [Frame.relocate_finish, f.relocate_absorb]
    exact .close _ _ hk
  | @token f t taken rest c e hk _ ih =>
    rw [f.relocate_add] at ih
    exact .token hk ih
  | @call f t inner taken rest d c e hk _ _ ihinside ihtail =>
    rw [f.relocate_receive] at ihtail
    rw [List.map_append] at ihinside
    rw [List.map_cons, List.map_append]
    exact .call hk ihinside ihtail
  | @cut f t inner rest d e hk _ ih =>
    -- the status of a call that was cut has no place in it
    have hstatus : CallStatus.ofError e = .ofError (e.map (Token.relocate σ)) := by
      cases e with
      | none => rfl
      | some t => exact congrArg CallStatus.broken t.violation_relocate.symm
    rw [Frame.relocate_finish, f.relocate_receive, hstatus]
    exact .cut hk ih

/-- Calls do not depend on places. -/
theorem read_relocate (hk : t.kind = .lparen) (ts : List Token) :
    read ((t :: ts).map (Token.relocate σ)) = (read (t :: ts)).relocate σ (Call.relocate σ) := by
  obtain ⟨taken, rest, c, e, rfl, h⟩ := exists_level (Frame.enter t) ts
  have hopen : (t.relocate σ).kind = .lparen := hk
  have hlevel := h.relocate σ
  rw [Frame.relocate_enter] at hlevel
  rw [List.map_cons, List.map_append, read_of_lparen hk h, read_of_lparen hopen hlevel,
    List.length_map, e.error_relocate]
  rfl

end Call

-- ---------------------------------------------------------------------------
-- The loops of the readers
-- ---------------------------------------------------------------------------

namespace Formula

def Setup.relocate (σ : Place → Place) (g : Setup) : Setup :=
  { g with error := g.error.map (Token.relocate σ), rest := g.rest.map (Token.relocate σ) }

theorem readSetup_relocate (i : Nat) (name : Option Text) (ts : List Token) :
    readSetup i name (ts.map (Token.relocate σ)) = (readSetup i name ts).relocate σ := by
  fun_induction readSetup i name ts <;> simp_all [readSetup, Setup.relocate]

/-- The call behind the name is read alike at other places. -/
theorem readProcedure_relocate (i : Nat) (ts : List Token) :
    readProcedure i (ts.map (Token.relocate σ)) =
      (readProcedure i ts).relocate σ (Option.map (Call.relocate σ)) := by
  induction ts generalizing i with
  | nil => rfl
  | cons t ts ih =>
    rw [List.map_cons, readProcedure, readProcedure, t.kind_relocate]
    split
    case h_1 => exact ih (i + 1)
    case h_2 hk =>
      have hread := Call.read_relocate (σ := σ) hk ts
      rw [List.map_cons] at hread
      rw [hread]
      rfl
    case h_3 => rfl
    case h_4 => rfl

/-- Whether a call is looked for does not depend on places. -/
theorem procedure_relocate (g : Setup) :
    (g.relocate σ).procedure = g.procedure.relocate σ (Option.map (Call.relocate σ)) := by
  unfold Setup.procedure
  have hclosed : (g.relocate σ).closed = g.closed := rfl
  rw [hclosed]
  split
  · exact readProcedure_relocate g.consumed g.rest
  · rfl

end Formula

namespace Link

def Group.relocate (σ : Place → Place) (g : Group) : Group :=
  { g with error := g.error.map (Token.relocate σ), rest := g.rest.map (Token.relocate σ) }

/-- Groups of links are read alike at other places. -/
theorem readGroup_relocate (i : Nat) (l : Link) (ts : List Token) :
    readGroup i l (ts.map (Token.relocate σ)) = (readGroup i l ts).relocate σ := by
  fun_induction readGroup i l ts <;> simp_all [readGroup, Group.relocate]

/-- Spaces are passed over alike. -/
theorem takeWhile_relocate (ts : List Token) :
    ((ts.map (Token.relocate σ)).takeWhile fun t => t.kind = .space) =
      (ts.takeWhile fun t => t.kind = .space).map (Token.relocate σ) :=
  List.takeWhile_map ..

theorem readSetup_relocate (i : Nat) (ts : List Token) :
    readSetup i (ts.map (Token.relocate σ)) = (readSetup i ts).relocate σ := by
  simp only [readSetup, takeWhile_relocate, List.length_map, ← List.map_drop]
  cases ts.drop (ts.takeWhile fun t => t.kind = .space).length with
  | nil => rfl
  | cons t rest =>
    simp only [List.map_cons, t.kind_relocate]
    split
    · exact readGroup_relocate _ _ rest
    · rfl
    · rfl

/-- The second group. -/
theorem readImage_relocate (g : Group) :
    readImage (g.relocate σ) = (readImage g).relocate σ := by
  have hrest : (g.relocate σ).rest = g.rest.map (Token.relocate σ) := rfl
  simp only [readImage, hrest, takeWhile_relocate, List.length_map, ← List.map_drop]
  cases g.rest.drop (g.rest.takeWhile fun t => t.kind = .space).length with
  | nil => rfl
  | cons t rest =>
    simp only [List.map_cons, t.kind_relocate]
    split
    · exact readGroup_relocate _ _ rest
    · rfl

/-- Whether the second group is looked for does not depend on places. -/
theorem withImage_relocate (g : Group) :
    (g.relocate σ).withImage = g.withImage.relocate σ := by
  unfold Group.withImage
  have hclosed : (g.relocate σ).closed = g.closed := rfl
  rw [hclosed]
  split
  · exact readImage_relocate g
  · rfl

end Link

theorem Reaction.readBody_relocate (i : Nat) (body : Text) (ts : List Token) :
    readBody i body (ts.map (Token.relocate σ)) = (readBody i body ts).relocate σ id := by
  fun_induction readBody i body ts <;> simp_all [readBody, Reading.relocate]

-- ---------------------------------------------------------------------------
-- Constructs and nodes
-- ---------------------------------------------------------------------------

/-- A node of tokens that were moved is the moved node. -/
theorem Token.synthesize_relocate (kind : TokenKind) (v : Value) (t : Token) (ts : List Token) :
    synthesize kind (v.relocate σ) ((t :: ts).map (relocate σ)) =
      (synthesize kind v (t :: ts)).relocate σ := by
  have hpieces : ((t :: ts).map (relocate σ)).map (·.toPiece) =
      ((t :: ts).map (·.toPiece)).map (Piece.relocate σ) := by
    rw [List.map_map, List.map_map]
    rfl
  rw [synthesize, hpieces, List.map_cons, Piece.join_cons_relocate]
  rfl

/-- A node stands where the first of its tokens does. -/
theorem Reading.ofTokens_relocate {n : Nat} (hn : 0 < n) (kind : TokenKind) (v : Value) (t : Token)
    (ts : List Token) (e : Option Token) :
    ofTokens kind (v.relocate σ) ((t :: ts).map (Token.relocate σ)) n
        (e.map (Token.relocate σ)) =
      (ofTokens kind v (t :: ts) n e).relocate σ (Token.relocate σ) := by
  obtain ⟨m, rfl⟩ := Nat.exists_eq_succ_of_ne_zero (Nat.ne_of_gt hn)
  rw [ofTokens, ofTokens, ← List.map_take, List.take_succ_cons, Token.synthesize_relocate]
  rfl

namespace Construct

/-- A reading moves when its extent and its error stay and the value moves. -/
theorem read?_relocate_of_ofTokens {c : Construct} {kind : TokenKind} {n : Nat} {e : Option Token}
    (h : c.read? (t :: ts) = some (.ofTokens kind v (t :: ts) n e))
    (h' : c.read? ((t :: ts).map (Token.relocate σ)) =
      some (.ofTokens kind (v.relocate σ) ((t :: ts).map (Token.relocate σ)) n
        (e.map (Token.relocate σ)))) :
    c.read? ((t :: ts).map (Token.relocate σ)) =
      (c.read? (t :: ts)).map (Reading.relocate σ (Token.relocate σ)) := by
  -- the node has a first token, and stands in its place
  have hpos : 0 < n := consumed_pos h
  rw [h, h', Option.map_some, Reading.ofTokens_relocate hpos]

/-- Constructs do not depend on places. -/
theorem read?_relocate (c : Construct) (ts : List Token) :
    c.read? (ts.map (Token.relocate σ)) =
      (c.read? ts).map (Reading.relocate σ (Token.relocate σ)) := by
  cases ts with
  | nil => cases c <;> rfl
  | cons t ts =>
    -- each construct by its own loops; without an opener nothing is read
    by_cases ht : t.kind = c.opener
    · cases c with
      | formula =>
        have hread := Formula.read?_of_opener (t := t.relocate σ) ht (ts.map (Token.relocate σ))
        rw [Formula.readSetup_relocate, Formula.procedure_relocate] at hread
        exact read?_relocate_of_ofTokens (Formula.read?_of_opener ht ts) hread
      | link =>
        have hread := Link.read?_of_opener (t := t.relocate σ) ht (ts.map (Token.relocate σ))
        rw [Link.readSetup_relocate, Link.withImage_relocate] at hread
        exact read?_relocate_of_ofTokens (Link.read?_of_opener ht ts) hread
      | reaction =>
        have hread := Reaction.read?_of_opener (t := t.relocate σ) ht (ts.map (Token.relocate σ))
        rw [Reaction.readBody_relocate] at hread
        exact read?_relocate_of_ofTokens (Reaction.read?_of_opener ht ts) hread
    · rw [read?_eq_none (by simpa using ht), read?_eq_none (by simpa using ht)]
      rfl

end Construct

/-- Which construct a list begins with depends on kinds only. -/
theorem Node.construct?_relocate (ts : List Token) :
    construct? (ts.map (Token.relocate σ)) =
      (construct? ts).map (Reading.relocate σ (Token.relocate σ)) := by
  cases ts with
  | nil => rfl
  | cons t ts =>
    by_cases hopen : ∃ c : Construct, t.kind = c.opener
    · obtain ⟨c, ht⟩ := hopen
      have ht' : (t.relocate σ).kind = c.opener := ht
      rw [List.map_cons, construct?_of_opener ht, construct?_of_opener ht', ← List.map_cons,
        c.read?_relocate]
    · have hplain : ∀ c : Construct, t.kind ≠ c.opener := fun c hc => hopen ⟨c, hc⟩
      rw [List.map_cons, construct?_eq_none hplain, construct?_eq_none (t := t.relocate σ) hplain]
      rfl

/-- **Nodes do not depend on places.** -/
theorem nodes_relocate (ts : List Token) :
    nodes (ts.map (Token.relocate σ)) = (nodes ts).map (Node.relocate σ) := by
  match ts with
  | [] => rw [List.map_nil, nodes_nil, List.map_nil]
  | t :: ts =>
    have hconstruct := Node.construct?_relocate (σ := σ) (t :: ts)
    rw [List.map_cons] at hconstruct ⊢
    cases h : Node.construct? (t :: ts) with
    | none =>
      rw [h] at hconstruct
      rw [nodes_cons_of_plain h, nodes_cons_of_plain hconstruct, nodes_relocate ts]
      rfl
    | some r =>
      rw [h] at hconstruct
      -- as many tokens are taken as before, and the rest is shorter
      rw [nodes_cons_of_construct h, nodes_cons_of_construct hconstruct, ← List.map_drop]
      exact congrArg (_ :: ·) (nodes_relocate (ts.drop (r.consumed - 1)))
termination_by ts.length
decreasing_by all_goals simp only [List.length_drop, List.length_cons]; omega

-- ---------------------------------------------------------------------------
-- Entries and records
-- ---------------------------------------------------------------------------

namespace Node

variable {α : Type}

theorem violation_relocate (n : Node) : (n.relocate σ).violation = n.violation := by
  unfold violation relocate
  cases n.error with
  | none => rfl
  | some t => exact t.violation_relocate

theorem capture_relocate (n : Node) (x : α) (move : α → α) :
    (n.relocate σ).capture (move x) = (n.capture x).relocate σ move := by
  rw [capture, capture, n.violation_relocate]
  rfl

/-- Entries that go by the kind of a text move. -/
theorem textOf_relocate (kind : TokenKind) (n : Node) :
    textOf kind (n.relocate σ) = (textOf kind n).map (Capture.relocate σ id) := by
  have hkind : (n.relocate σ).token.kind = n.token.kind := rfl
  have hvalue : (n.relocate σ).token.value = n.token.value.relocate σ := rfl
  unfold textOf
  rw [hkind, hvalue]
  cases n.token.value with
  | text x =>
    show (if n.token.kind = kind then some ((n.relocate σ).capture x) else none) =
      Option.map _ (if n.token.kind = kind then some (n.capture x) else none)
    split
    · exact congrArg some (n.capture_relocate x id)
    · rfl
  | _ => rfl

theorem violationOf_relocate (t : Token) :
    violationOf (t.relocate σ) = (violationOf t).map (Capture.relocate σ id) := by
  rw [violationOf, violationOf, t.violation_relocate, Option.map_map]
  rfl

/-- Errors are reported in the same order, at the moved places. -/
theorem violations_relocate (n : Node) :
    (n.relocate σ).violations = n.violations.map (Capture.relocate σ id) := by
  have herror : ((n.relocate σ).error.bind violationOf) =
      (n.error.bind violationOf).map (Capture.relocate σ id) := by
    unfold relocate
    cases n.error with
    | none => rfl
    | some t => exact violationOf_relocate t
  have htoken : violationOf (n.relocate σ).token =
      (violationOf n.token).map (Capture.relocate σ id) := violationOf_relocate n.token
  rw [violations, violations, herror, htoken, List.map_append, Option.toList_map,
    Option.toList_map]

end Node

/-- An entry goes by the value, and moves as the value does. -/
theorem Dispatches.relocate {α : Type} {entry : Node → Option (Capture α)} {mk : α → Value}
    (h : Dispatches entry mk) {move : α → α} (hmove : ∀ x, (mk x).relocate σ = mk (move x))
    (hback : ∀ v y, v.relocate σ = mk y → ∃ x, v = mk x) (n : Node) :
    entry (n.relocate σ) = (entry n).map (Capture.relocate σ move) := by
  cases hn : entry n with
  | some e =>
    obtain ⟨x, hx, rfl⟩ := (h n e).1 hn
    have hvalue : (n.relocate σ).token.value = mk (move x) := by
      show n.token.value.relocate σ = _
      rw [hx, hmove]
    rw [h.eq_some hvalue, n.capture_relocate, Option.map_some]
  | none =>
    -- a value that is moved to one of the field has been one of the field
    refine h.eq_none fun y hy => ?_
    obtain ⟨x, hx⟩ := hback _ y hy
    rw [h.eq_some hx] at hn
    contradiction

/-- Entries without places in their values. -/
theorem Dispatches.relocate_id {α : Type} {entry : Node → Option (Capture α)} {mk : α → Value}
    (h : Dispatches entry mk) (hmk : ∀ x f, mk x ≠ .formula f) (n : Node) :
    entry (n.relocate σ) = (entry n).map (Capture.relocate σ id) := by
  refine h.relocate (fun x => ?_) (fun v y hv => ?_) n
  · cases hx : mk x with
    | formula f => exact absurd hx (hmk x f)
    | _ => exact hx.symm
  · cases v with
    | formula f => exact absurd hv.symm (hmk y _)
    | _ => exact ⟨y, hv⟩

/-- The values of formulas hold the places of their calls. -/
theorem Node.formula?_relocate (n : Node) :
    (n.relocate σ).formula? = n.formula?.map (Capture.relocate σ (Formula.relocate σ)) := by
  refine dispatches_formula.relocate (fun _ => rfl) (fun v y h => ?_) n
  cases v with
  | formula f => exact ⟨f, rfl⟩
  | _ => contradiction

/-- A field moves if each of its entries does. -/
theorem filterMap_relocate {α : Type} {entry : Node → Option (Capture α)} {move : α → α}
    (h : ∀ n, entry (n.relocate σ) = (entry n).map (Capture.relocate σ move)) (ns : List Node) :
    (ns.map (Node.relocate σ)).filterMap entry =
      (ns.filterMap entry).map (Capture.relocate σ move) := by
  rw [List.filterMap_map, List.map_filterMap]
  exact List.filterMap_congr fun n _ => h n

/-- A record without the note and its chunks. -/
def Record.besidesText (r : Record) : Record := { r with text := [], chunks := [] }

/-- The body of a note is text, and does not move. -/
theorem body_relocate (ns : List Node) :
    ((ns.map (Node.relocate σ)).filter (!·.token.kind.isHeader)).flatMap (·.token.text) =
      (ns.filter (!·.token.kind.isHeader)).flatMap (·.token.text) := by
  rw [List.filter_map, List.flatMap_map]
  rfl

/-- Field by field, the record moves with its nodes. -/
theorem Record.besidesText_ofNodes_relocate (ns : List Node) :
    (ofNodes (ns.map (Node.relocate σ))).besidesText =
      ((ofNodes ns).relocate σ).besidesText := by
  have htext (kind : TokenKind) := filterMap_relocate (Node.textOf_relocate (σ := σ) kind) ns
  have hdate := filterMap_relocate (dispatches_date.relocate_id (σ := σ) nofun) ns
  have hreaction := filterMap_relocate (dispatches_reaction.relocate_id (σ := σ) nofun) ns
  have hevent := filterMap_relocate (dispatches_event.relocate_id (σ := σ) nofun) ns
  have hbean := filterMap_relocate (dispatches_bean.relocate_id (σ := σ) nofun) ns
  have hcell := filterMap_relocate (dispatches_cell.relocate_id (σ := σ) nofun) ns
  have hlink := filterMap_relocate (dispatches_link.relocate_id (σ := σ) nofun) ns
  have hformula := filterMap_relocate (Node.formula?_relocate (σ := σ)) ns
  have herror : (ns.map (Node.relocate σ)).flatMap Node.violations =
      (ns.flatMap Node.violations).map (Capture.relocate σ id) := by
    rw [List.flatMap_map, List.map_flatMap]
    exact List.flatMap_congr fun n _ => n.violations_relocate
  simp only [ofNodes, besidesText, relocate, htext, hdate, hreaction, hevent, hbean, hcell, hlink,
    hformula, herror, body_relocate, List.getLast?_map]

/-- **What is read does not depend on places.**  Of tokens that stand elsewhere the record is the
same, elsewhere. -/
theorem Record.besidesText_assemble_relocate (ts : List Token) :
    (assemble (ts.map (Token.relocate σ))).besidesText =
      ((assemble ts).relocate σ).besidesText := by
  rw [assemble, nodes_relocate, besidesText_ofNodes_relocate, assemble]

end Jot
