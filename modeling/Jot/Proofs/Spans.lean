import Jot.Proofs.Call.Level
import Jot.Proofs.Errors
import Jot.Proofs.Lexeme
import Jot.Proofs.Ownership
import Jot.Proofs.Position

/-!
# Jot — spans

Places are set once, at the first token of a node, and texts are put together from the tokens, by
the reader of calls, in nodes and in chunks.  The tokens of a note stand one behind the other
(`Piece.Tiles`), and this is all that is needed for whatever is joined from neighbours to stand
where it says.

* `Piece.Tiles.join` — pieces one behind the other make up one piece;
* `Call.Level.placed` — so every call stands where it says, at every depth;
* `Cuts.tiles`, `tiles_mergePlainText` — nodes and chunks stand one behind the other again;
* `parse_placed` — all of it, for the record of a note.
-/

namespace Jot

-- ---------------------------------------------------------------------------
-- Pieces one behind the other
-- ---------------------------------------------------------------------------

namespace Piece

variable {note before behind : Text} {p : Place} {q : Piece} {ps qs : List Piece}

/-- The pieces stand one behind the other, the first of them at `p`, and count their line feeds. -/
def Tiles (p : Place) : List Piece → Prop
  | [] => True
  | q :: ps => q = ofText p q.text ∧ Tiles (p.after q.text) ps

/-- Two rows of pieces stand one behind the other when the second begins where the first ends. -/
theorem tiles_append :
    Tiles p (ps ++ qs) ↔ Tiles p ps ∧ Tiles (p.after (ps.flatMap (·.text))) qs := by
  induction ps generalizing p with
  | nil => simp [Tiles]
  | cons q ps ih =>
    rw [List.cons_append, Tiles, Tiles, ih, List.flatMap_cons, Place.after_append, and_assoc]

/-- Pieces one behind the other are laid out by their texts alone. -/
theorem Tiles.eq_layout (h : Tiles p ps) : ps = layout p (ps.map (·.text)) := by
  induction ps generalizing p with
  | nil => rfl
  | cons q ps ih =>
    rw [List.map_cons, layout, ← h.1, ← ih h.2]

/-- Joined, pieces one behind the other are one piece. -/
theorem Tiles.join (h : Tiles p (q :: ps)) :
    join (q :: ps) = ofText p ((q :: ps).flatMap (·.text)) := by
  rw [h.eq_layout, List.map_cons, join_layout, flatMap_text_layout]

/-- No piece of a row stands before its beginning. -/
theorem Tiles.offset_le (h : Tiles p ps) : ∀ q ∈ ps, p.offset ≤ q.offset := by
  induction ps generalizing p with
  | nil => simp
  | cons q ps ih =>
    refine List.forall_mem_cons.2 ⟨Nat.le_of_eq (congrArg (·.offset) h.1).symm, ?_⟩
    intro x hx
    refine Nat.le_trans ?_ (ih h.2 x hx)
    rw [Place.offset_after]
    exact Nat.le_add_right _ _

/-- Pieces one behind the other from the start cover the text they make up. -/
theorem Tiles.covers (h : Tiles Place.start ps) : Covers (ps.flatMap (·.text)) ps := by
  refine .of_stands rfl ?_
  rintro front q behind rfl
  have hq := (tiles_append.1 h).2.1
  rw [hq, List.flatMap_append, List.flatMap_cons, ← List.append_assoc]
  exact stands_of_append _ _ _

/-- A piece stands somewhere in a note. -/
def StandsIn (note : Text) (p : Piece) : Prop := ∃ before, p.Stands note before

theorem Covers.standsIn (h : Covers note ps) : ∀ q ∈ ps, q.StandsIn note := by
  intro q hq
  obtain ⟨front, behind, hsplit⟩ := List.append_of_mem hq
  exact ⟨_, h.stands front q behind hsplit⟩

end Piece

/-- The steps of a run read pieces one behind the other. -/
theorem Cursor.Run.tiles {k : Keywords} {c d : Cursor} {ss : List Step} (h : Run k c ss d) :
    Piece.Tiles c.place (ss.map (·.token.toPiece)) := by
  induction h with
  | nil => trivial
  | cons head _ ih =>
    obtain ⟨r, hr⟩ := exists_rule_of_step? head
    rw [hr.place] at ih
    exact ⟨hr.piece, ih⟩

/-- What is read from a cursor on stands one behind the other. -/
theorem Cursor.tiles_stepsFrom (k : Keywords) (c : Cursor) :
    Piece.Tiles c.place (((c.stepsFrom k []).map Step.token).map (·.toPiece)) := by
  obtain ⟨d, hrun, -⟩ := run_stepsFrom k c
  rw [List.map_map]
  exact hrun.tiles

/-- The tokens of a note stand one behind the other, from its start on. -/
theorem tiles_tokenize (k : Keywords) (note : Text) :
    Piece.Tiles Place.start ((tokenize k note).map (·.toPiece)) :=
  Cursor.tiles_stepsFrom k (Cursor.start note)

-- ---------------------------------------------------------------------------
-- Calls
-- ---------------------------------------------------------------------------

def Arg.call? : Arg → Option Call
  | .call c => some c
  | _ => none

/-- The calls among the arguments of a call, in order. -/
def Call.inner (c : Call) : List Call := c.args.filterMap Arg.call?

namespace Call

/-- The value of an argument token is no call. -/
theorem call?_callArg (v : Value) : Arg.call? (Decode.callArg v) = none := by
  unfold Decode.callArg
  split <;> rfl

/-- A token added to a frame adds no nested call. -/
theorem call?_args_add (f : Frame) (t : Token) :
    (f.add t).args.filterMap Arg.call? = f.args.filterMap Arg.call? := by
  rw [f.args_add]
  split
  · rw [List.filterMap_cons, call?_callArg]
  · rfl

/-- The nested calls of a call are those that its frame has received. -/
theorem inner_finish (f : Frame) (status : CallStatus) :
    (f.finish status).inner = (f.args.filterMap Arg.call?).reverse :=
  List.filterMap_reverse

end Call

/-- A call stands in the note, behind its parenthesis the calls among its arguments follow one
another inside of it, and all of this holds of these calls as well. -/
inductive Call.Placed (note : Text) : Call → Prop
  | intro {c : Call} (stands : c.toPiece.StandsIn note) (opens : c.text.head? = some '(')
      (inside : ∀ d ∈ c.inner, c.offset + 1 ≤ d.offset ∧ d.span.2 ≤ c.span.2)
      (order : c.inner.Pairwise fun d e => d.span.2 ≤ e.offset)
      (inner : ∀ d ∈ c.inner, Placed note d) : Placed note c

/-- The tokens of a call that are read so far make up the text `inside`, which begins behind
`before`; the calls among its arguments, latest first, keep the law. -/
structure Frame.Placed (note before inside : Text) (f : Frame) : Prop where
  place      : f.place = Place.start.after before
  text       : f.pieces.reverse.flatMap (·.text) = inside
  lineBreaks : total (·.lineBreaks) f.pieces.reverse = inside.lineBreaks
  opens      : inside.head? = some '('
  inner      : ∀ d ∈ f.args.filterMap Arg.call?, d.Placed note ∧
    before.byteSize + 1 ≤ d.offset ∧ d.span.2 ≤ (before ++ inside).byteSize
  order      : (f.args.filterMap Arg.call?).Pairwise fun e d => d.span.2 ≤ e.offset

namespace Frame.Placed

variable {note before inside behind : Text} {f g : Frame} {p : Piece} {t : Token} {d : Call}

/-- One more piece behind what is read. -/
theorem grow (h : f.Placed note before inside) (hplace : g.place = f.place)
    (hpieces : g.pieces = p :: f.pieces) (hp : p.lineBreaks = p.text.lineBreaks)
    (hargs : g.args.filterMap Arg.call? = f.args.filterMap Arg.call?) :
    g.Placed note before (inside ++ p.text) where
  place      := hplace.trans h.place
  text       := by rw [hpieces, List.reverse_cons, List.flatMap_append, h.text]; simp
  lineBreaks := by
    rw [hpieces, List.reverse_cons, total_append, h.lineBreaks, total_cons, hp]
    simp [Text.lineBreaks, List.count_append]
  opens      := by rw [List.head?_append, h.opens]; rfl
  inner      := by
    rw [hargs]
    intro d hd
    obtain ⟨hplaced, hlow, hhigh⟩ := h.inner d hd
    refine ⟨hplaced, hlow, Nat.le_trans hhigh ?_⟩
    rw [← List.append_assoc, Text.byteSize_append _ p.text]
    exact Nat.le_add_right _ _
  order      := hargs ▸ h.order

theorem absorb (h : f.Placed note before inside) (hp : p.lineBreaks = p.text.lineBreaks) :
    (f.absorb p).Placed note before (inside ++ p.text) :=
  h.grow rfl rfl hp rfl

/-- A token that is added to a frame stands at its end, and is no call. -/
theorem add (h : f.Placed note before inside) (ht : t.lineBreaks = t.text.lineBreaks) :
    (f.add t).Placed note before (inside ++ t.text) :=
  h.grow (f.place_add t) (f.pieces_add t) ht (Call.call?_args_add f t)

/-- A frame begins with its opening parenthesis. -/
theorem enter (ht : t.toPiece = Piece.ofText (Place.start.after before) ['(']) :
    (Frame.enter t).Placed note before ['('] where
  place      := congrArg (·.toPlace) ht
  text       := by simp [Frame.pieces_enter, ht, Piece.ofText]
  lineBreaks := by simp [Frame.pieces_enter, ht, Piece.ofText]
  opens      := rfl
  inner      := fun _ hd => nomatch hd
  order      := .nil

/-- A call that stands where the frame ends becomes its latest argument. -/
theorem receive (h : f.Placed note before inside) (hd : d.Placed note)
    (hpiece : d.toPiece = Piece.ofText (Place.start.after (before ++ inside)) d.text) :
    (f.receive d).Placed note before (inside ++ d.text) := by
  have hoffset : d.offset = (before ++ inside).byteSize := by
    rw [hpiece, Place.after_start]
    rfl
  have hspan : d.span.2 = (before ++ (inside ++ d.text)).byteSize := by
    rw [Piece.span, hoffset, ← List.append_assoc, Text.byteSize_append _ d.text]
  have hargs : (f.receive d).args.filterMap Arg.call? = d :: f.args.filterMap Arg.call? := rfl
  have hgrown := h.grow (g := f.absorb d.toPiece) rfl rfl
    ((congrArg (·.lineBreaks) hpiece).trans rfl) rfl
  -- the opening parenthesis is one byte of what is read
  have hinside : 1 ≤ inside.byteSize := by
    obtain ⟨rest, hrest⟩ := List.head?_eq_some_iff.1 h.opens
    rw [hrest, Text.byteSize_cons]
    exact Nat.le_add_right _ _
  refine {
    place      := hgrown.place
    text       := hgrown.text
    lineBreaks := hgrown.lineBreaks
    opens      := hgrown.opens
    inner      := ?_
    order      := ?_ }
  · rw [hargs]
    refine List.forall_mem_cons.2 ⟨⟨hd, ?_, Nat.le_of_eq hspan⟩, hgrown.inner⟩
    rw [hoffset, Text.byteSize_append]
    omega
  · rw [hargs]
    refine List.pairwise_cons.2 ⟨?_, h.order⟩
    intro e he
    rw [hoffset]
    exact (h.inner e he).2.2

/-- A frame that is finished is a call that keeps the law. -/
theorem finish (h : f.Placed note before inside) (hnote : note = before ++ inside ++ behind)
    (status : CallStatus) :
    (f.finish status).toPiece = Piece.ofText (Place.start.after before) inside ∧
      (f.finish status).Placed note := by
  have hpiece : (f.finish status).toPiece = Piece.ofText (Place.start.after before) inside := by
    rw [← h.place, Piece.ofText, ← h.lineBreaks, ← h.text]
    rfl
  have hinner := Call.inner_finish f status
  have hoffset : (f.finish status).offset = before.byteSize := by
    rw [hpiece, Place.after_start]
    rfl
  have htext : (f.finish status).text = inside := congrArg (·.text) hpiece
  refine ⟨hpiece, .intro ⟨before, ?_⟩ (htext ▸ h.opens) ?_ ?_ ?_⟩
  · rw [hpiece, hnote]
    exact Piece.stands_of_append _ _ _
  · rw [hinner]
    intro d hd
    obtain ⟨-, hlow, hhigh⟩ := h.inner d (List.mem_reverse.1 hd)
    refine ⟨hoffset ▸ hlow, ?_⟩
    rw [Piece.span, Piece.span, hoffset, htext, ← Text.byteSize_append]
    exact hhigh
  · rw [hinner]
    exact List.pairwise_reverse.2 h.order
  · rw [hinner]
    exact fun d hd => (h.inner d (List.mem_reverse.1 hd)).1

end Frame.Placed

/-- The parentheses that open calls are written as such. -/
def Parenthesized (ts : List Token) : Prop := ∀ t ∈ ts, t.kind = .lparen → t.text = ['(']

/-- Tokens one behind the other, the first of them a parenthesis. -/
theorem tiles_lparen {before : Text} {t : Token} {ts : List Token} (ht : t.text = ['('])
    (h : Piece.Tiles (Place.start.after before) ((t :: ts).map (·.toPiece))) :
    t.toPiece = Piece.ofText (Place.start.after before) ['('] ∧
      Piece.Tiles (Place.start.after (before ++ ['('])) (ts.map (·.toPiece)) := by
  obtain ⟨hpiece, htiles⟩ := h
  rw [ht] at hpiece
  rw [ht, ← Place.after_append] at htiles
  exact ⟨hpiece, htiles⟩

/-- Level by level, what is read from tokens one behind the other stands where it says. -/
theorem Call.Level.placed {note before inside behind : Text} {f : Frame}
    {taken rest : List Token} {c : Call} {e : Ending} (h : Level f taken rest c e)
    (hf : f.Placed note before inside)
    (htiles : Piece.Tiles (Place.start.after (before ++ inside)) (taken.map (·.toPiece)))
    (hparens : Parenthesized taken)
    (hnote : note = before ++ (inside ++ taken.flatMap (·.text)) ++ behind) :
    c.toPiece = Piece.ofText (Place.start.after before) (inside ++ taken.flatMap (·.text)) ∧
      c.Placed note := by
  induction h generalizing before inside behind with
  | stop f | foreign f rest hk =>
    rw [List.flatMap_nil, List.append_nil] at hnote ⊢
    exact hf.finish hnote _
  | @error f t rest hk | @close f t rest hk =>
    rw [List.flatMap_singleton] at hnote ⊢
    exact (hf.absorb (congrArg (·.lineBreaks) htiles.1)).finish hnote _
  | @token f t taken rest c e hk _ ih =>
    obtain ⟨-, hparens⟩ := List.forall_mem_cons.1 hparens
    rw [List.flatMap_cons, ← List.append_assoc inside] at hnote ⊢
    refine ih (hf.add (congrArg (·.lineBreaks) htiles.1)) ?_ hparens hnote
    rw [← List.append_assoc, Place.after_append]
    exact htiles.2
  | @call f t inner taken rest d c e hk _ _ ihinside ihtail =>
    obtain ⟨hopen, hparens⟩ := List.forall_mem_cons.1 hparens
    obtain ⟨hparensInner, hparensTaken⟩ := List.forall_mem_append.1 hparens
    obtain ⟨ht, htiles⟩ := tiles_lparen (hopen hk) htiles
    obtain ⟨htilesInner, htilesTaken⟩ := Piece.tiles_append.1 (List.map_append ▸ htiles)
    rw [List.flatMap_map, ← Place.after_append] at htilesTaken
    have htext : (t :: (inner ++ taken)).flatMap (·.text) =
        (['('] ++ inner.flatMap (·.text)) ++ taken.flatMap (·.text) := by
      rw [List.flatMap_cons, hopen hk, List.flatMap_append, List.append_assoc]
    rw [htext, ← List.append_assoc inside] at hnote ⊢
    -- the nested call begins where the frame ends
    have hinner : note = (before ++ inside) ++ (['('] ++ inner.flatMap (·.text)) ++
        (taken.flatMap (·.text) ++ behind) := by
      rw [hnote]
      simp
    obtain ⟨hpiece, hd⟩ := ihinside (Frame.Placed.enter ht) htilesInner hparensInner hinner
    have hdtext : d.text = ['('] ++ inner.flatMap (·.text) := congrArg (·.text) hpiece
    rw [← hdtext] at hpiece hnote ⊢
    refine ihtail (hf.receive hd hpiece) ?_ hparensTaken hnote
    rw [hdtext]
    simpa using htilesTaken
  | @cut f t inner rest d e hk _ ih =>
    obtain ⟨hopen, hparens⟩ := List.forall_mem_cons.1 hparens
    obtain ⟨ht, htiles⟩ := tiles_lparen (hopen hk) htiles
    have htext : (t :: inner).flatMap (·.text) = ['('] ++ inner.flatMap (·.text) := by
      rw [List.flatMap_cons, hopen hk]
    rw [htext] at hnote ⊢
    have hinner : note = (before ++ inside) ++ (['('] ++ inner.flatMap (·.text)) ++ behind := by
      rw [hnote]
      simp
    obtain ⟨hpiece, hd⟩ := ih (Frame.Placed.enter ht) htiles hparens hinner
    have hdtext : d.text = ['('] ++ inner.flatMap (·.text) := congrArg (·.text) hpiece
    rw [← hdtext] at hpiece hnote ⊢
    exact (hf.receive hd hpiece).finish hnote _

-- ---------------------------------------------------------------------------
-- Formulas
-- ---------------------------------------------------------------------------

/-- The call of a formula is read at one of the parentheses of the tokens. -/
theorem Formula.procedure_readProcedure {i : Nat} {ts : List Token} {c : Call}
    (h : (readProcedure i ts).node = some c) :
    ∃ front t rest, ts = front ++ t :: rest ∧ t.kind = .lparen ∧
      c = (Call.read (t :: rest)).node := by
  induction ts generalizing i with
  | nil => contradiction
  | cons t ts ih =>
    rw [readProcedure] at h
    split at h
    case h_1 hk =>
      obtain ⟨front, x, rest, rfl, hx, hc⟩ := ih h
      exact ⟨t :: front, x, rest, rfl, hx, hc⟩
    case h_2 hk => exact ⟨[], t, ts, rfl, hk, (Option.some.inj h).symm⟩
    case h_3 => contradiction
    case h_4 => contradiction

/-- The call in the value of a formula is what is read at one of its parentheses. -/
theorem Formula.procedure_read? {ts : List Token} {r : Reading Token}
    (h : Formula.read? ts = some r) :
    ∃ f : Formula, r.node.value = .formula f ∧ ∀ c ∈ f.procedure,
      ∃ front t rest, ts = front ++ t :: rest ∧ t.kind = .lparen ∧
        c = (Call.read (t :: rest)).node := by
  obtain ⟨t, behind, rfl, ht⟩ := Construct.exists_cons_of_read? (c := .formula) h
  rw [read?_of_opener ht] at h
  obtain rfl := Option.some.inj h
  refine ⟨_, rfl, fun c hc => ?_⟩
  obtain ⟨front, hfront, -⟩ := (takes_readSetup 1 none behind).exists_front
  rw [Setup.procedure] at hc
  split at hc
  case isTrue =>
    obtain ⟨front', x, rest, hsplit, hx, hread⟩ := procedure_readProcedure hc
    exact ⟨t :: (front ++ (readSetup 1 none behind).error.toList ++ front'), x, rest,
      by rw [List.cons_append, List.append_assoc, ← hsplit, ← hfront], hx, hread⟩
  case isFalse => contradiction

-- ---------------------------------------------------------------------------
-- Nodes and chunks
-- ---------------------------------------------------------------------------

/-- Nodes of tokens that stand one behind the other do so again. -/
theorem Cuts.tiles {tokens : List Token} {ns : List Node} {p : Place} (h : Cuts tokens ns)
    (htiles : Piece.Tiles p (tokens.map (·.toPiece))) :
    Piece.Tiles p (ns.map (·.token.toPiece)) := by
  induction h generalizing p with
  | nil => trivial
  | plain _ _ ih => exact ⟨htiles.1, ih htiles.2⟩
  | @construct c run rest ns r hr _ ih =>
    obtain ⟨hrun, hrest⟩ := Piece.tiles_append.1 (List.map_append ▸ htiles)
    rw [List.flatMap_map, ← hr.text] at hrest
    refine ⟨?_, ih hrest⟩
    obtain ⟨t, front, hparts, -, -⟩ := hr.parts
    obtain ⟨v, -, hnode⟩ := hr.node
    -- the node is joined from the tokens that its construct takes
    have hpiece : r.node.toPiece = Piece.join (run.map (·.toPiece)) := by rw [hnode]; rfl
    show r.node.toPiece = Piece.ofText p r.node.text
    rw [hr.text, hpiece, ← List.flatMap_map Token.toPiece Piece.text]
    rw [hparts] at hrun ⊢
    exact hrun.join

/-- Merging plain text keeps pieces one behind the other. -/
theorem tiles_mergePlainText {captures : List (Capture Value)} {p : Place}
    (h : Piece.Tiles p (captures.map (·.toPiece))) :
    Piece.Tiles p ((mergePlainText captures).map (·.toPiece)) := by
  rw [mergePlainText_eq]
  rw [← List.flatten_splitBy plainPair captures] at h
  generalize captures.splitBy plainPair = runs at h ⊢
  -- on the runs of plain text, each of which becomes one chunk
  induction runs generalizing p with
  | nil => trivial
  | cons run runs ih =>
    rw [List.flatten_cons, List.map_append] at h
    obtain ⟨hrun, hruns⟩ := Piece.tiles_append.1 h
    cases run with
    | nil => exact ih hruns
    | cons first others =>
      rw [List.flatMap_map, ← first.text_merge] at hruns
      refine ⟨?_, ih hruns⟩
      show (first.merge others).toPiece = _
      rw [first.text_merge, ← List.flatMap_map]
      exact Piece.Tiles.join hrun

-- ---------------------------------------------------------------------------
-- Records
-- ---------------------------------------------------------------------------

/-- In every note, the parentheses that open calls are written as such. -/
theorem parenthesized_tokenize (k : Keywords) (note : Text) :
    Parenthesized (tokenize k note) := by
  intro t ht hk
  obtain ⟨s, c, r, hr, rfl⟩ := exists_rule_of_mem_tokenize ht
  exact hr.text_of_lparen hk

/-- A call that is read at a parenthesis of the note stands where it says. -/
theorem placed_read {k : Keywords} {note : Text} {front rest : List Token} {t : Token}
    (h : tokenize k note = front ++ t :: rest) (hk : t.kind = .lparen) :
    (Call.read (t :: rest)).node.Placed note := by
  obtain ⟨taken, behind, c, e, rfl, hlevel⟩ := Call.exists_level (Frame.enter t) rest
  rw [Call.read_of_lparen hk hlevel]
  have hparens := parenthesized_tokenize k note
  rw [h, Parenthesized, List.forall_mem_append, List.forall_mem_cons] at hparens
  obtain ⟨-, hopen, hparens⟩ := hparens
  have htiles := tiles_tokenize k note
  rw [h, List.map_append, Piece.tiles_append, List.flatMap_map] at htiles
  obtain ⟨ht, htiles⟩ := tiles_lparen (hopen hk) htiles.2
  have hnote : note = front.flatMap (·.text) ++ (['('] ++ taken.flatMap (·.text)) ++
      behind.flatMap (·.text) := by
    conv_lhs => rw [← flatMap_text_tokenize k note, h]
    simp [hopen hk]
  refine (hlevel.placed (Frame.Placed.enter ht) ?_ (List.forall_mem_append.1 hparens).1 hnote).2
  exact (Piece.tiles_append.1 (List.map_append ▸ htiles)).1

/-- In two related lists each entry of the second has a partner in the first. -/
theorem exists_mem_of_forall₂ {α β : Type} {R : α → β → Prop} {l : List α} {m : List β}
    (h : List.Forall₂ R l m) : ∀ b ∈ m, ∃ a ∈ l, R a b := by
  induction h with
  | nil => simp
  | cons hab _ ih =>
    refine List.forall_mem_cons.2 ⟨⟨_, List.mem_cons_self, hab⟩, fun b hb => ?_⟩
    obtain ⟨a, ha, hr⟩ := ih b hb
    exact ⟨a, List.mem_cons_of_mem _ ha, hr⟩

/-- The calls of the formulas are read at parentheses of the note. -/
theorem exists_read_of_mem_formula {k : Keywords} {note : Text} {e : Capture Formula}
    (he : e ∈ (parse k note).formula) : ∀ c ∈ e.value.procedure,
    ∃ front t rest, tokenize k note = front ++ t :: rest ∧ t.kind = .lparen ∧
      c = (Call.read (t :: rest)).node := by
  have hnodes := (dispatches_formula.collects (c := .formula)
    (fun v => by cases v <;> simp [Construct.holds]) k note).nodes
  obtain ⟨l, hl, r, hread, hentry⟩ := exists_mem_of_forall₂ hnodes e he
  obtain ⟨f, hvalue, rfl⟩ := (dispatches_formula _ _).1 hentry
  obtain ⟨g, hg, hcalls⟩ := Formula.procedure_read? hread
  intro c hc
  obtain rfl : g = f := Value.formula.inj (hg.symm.trans hvalue)
  obtain ⟨front, t, rest, rfl, hk, rfl⟩ := hcalls c hc
  obtain ⟨before, hbefore⟩ := (List.mem_tails _ _).1 (List.mem_filter.1 hl).1
  exact ⟨before ++ front, t, rest, by rw [← hbefore, List.append_assoc], hk, rfl⟩

/-- The calls of every formula of a record stand where they say. -/
theorem placed_of_mem_formula {k : Keywords} {note : Text} {e : Capture Formula}
    (he : e ∈ (parse k note).formula) : ∀ c ∈ e.value.procedure, c.Placed note := by
  intro c hc
  obtain ⟨front, t, rest, hsplit, hk, rfl⟩ := exists_read_of_mem_formula he c hc
  exact placed_read hsplit hk

/-- What a record says of places is true of the note. -/
structure Record.Placed (note : Text) (r : Record) : Prop where
  /-- The chunks follow one another from the first byte to the last. -/
  chunks   : Piece.Covers note (r.chunks.map (·.toPiece))
  formula  : ∀ e ∈ r.formula, e.StandsIn note
  link     : ∀ e ∈ r.link, e.StandsIn note
  reaction : ∀ e ∈ r.reaction, e.StandsIn note
  /-- Calls stand in the note at every depth, and those among the arguments of a call follow one
  another inside of it. -/
  calls    : ∀ e ∈ r.formula, ∀ c ∈ e.value.procedure, c.Placed note

/-- An entry of a field that goes by the value stands where its node does. -/
theorem Dispatches.toPiece {α : Type} {entry : Node → Option (Capture α)} {mk : α → Value}
    (h : Dispatches entry mk) {ns : List Node} {e : Capture α} (he : e ∈ ns.filterMap entry) :
    e.toPiece ∈ ns.map (·.token.toPiece) := by
  obtain ⟨n, hn, hentry⟩ := List.mem_filterMap.1 he
  obtain ⟨x, -, rfl⟩ := (h n e).1 hentry
  exact List.mem_map.2 ⟨n, hn, rfl⟩

/-- **Places in a record are those of the note.**  Whatever the keywords and the note, chunks,
formulas, links, reactions and calls at every depth stand where the record says. -/
theorem parse_placed (k : Keywords) (note : Text) : (parse k note).Placed note := by
  have hnodes := (cuts_nodes _).tiles (tiles_tokenize k note)
  have hcover : ((nodes (tokenize k note)).map (·.token.toPiece)).flatMap (·.text) = note := by
    rw [List.flatMap_map, (cuts_nodes _).text, flatMap_text_tokenize]
  -- nodes make up the note, so each of them stands in it
  have hstands := hcover ▸ hnodes.covers.standsIn
  have hchunks : Piece.Tiles Place.start ((parse k note).chunks.map (·.toPiece)) :=
    tiles_mergePlainText (by rw [List.map_map]; exact hnodes)
  have htext : ((parse k note).chunks.map (·.toPiece)).flatMap (·.text) = note := by
    rw [List.flatMap_map]
    refine Eq.trans (text_mergePlainText _) (Eq.trans ?_ hcover)
    rw [List.flatMap_map, List.flatMap_map]
    rfl
  refine {
    chunks   := ?_
    formula  := fun e he => hstands _ (dispatches_formula.toPiece he)
    link     := fun e he => hstands _ (dispatches_link.toPiece he)
    reaction := fun e he => hstands _ (dispatches_reaction.toPiece (List.mem_of_getLast? he))
    calls    := fun e he => placed_of_mem_formula he }
  have hcovers := hchunks.covers
  rwa [htext] at hcovers

end Jot
