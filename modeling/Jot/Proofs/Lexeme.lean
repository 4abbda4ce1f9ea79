import Jot.Proofs.Boundary

/-!
# Jot — lexemes

A lexeme is a token without its place.  Laid out from some place on, lexemes become tokens again,
each where the one before it ends, so what the lexer reads from a text can be said without places.

* `Piece.join_layout`, `Token.synthesize_layout` — what is laid out and joined is one piece;
* `Cursor.Lexes` — the lexer reads some lexemes on its way from one cursor to another;
* `Cursor.lexes_of_rule` — one step of it, by the first rule that matches;
* `Cursor.Lexes.tokenize` — a note begins with the tokens that are read at its start.
-/

namespace Jot

-- ---------------------------------------------------------------------------
-- Layouts
-- ---------------------------------------------------------------------------

namespace Piece

/-- Texts one behind the other, the first of them at `p`. -/
def layout (p : Place) : List Text → List Piece
  | [] => []
  | t :: ts => ofText p t :: layout (p.after t) ts

/-- What is laid out behind some texts begins where they end. -/
theorem layout_append (p : Place) (ts us : List Text) :
    layout p (ts ++ us) = layout p ts ++ layout (p.after ts.flatten) us := by
  induction ts generalizing p with
  | nil => rfl
  | cons t ts ih =>
    rw [List.cons_append, layout, layout, ih, List.flatten_cons, Place.after_append,
      List.cons_append]

/-- Texts that are laid out make up their text. -/
theorem flatMap_text_layout (p : Place) (ts : List Text) :
    (layout p ts).flatMap Piece.text = ts.flatten := by
  induction ts generalizing p with
  | nil => rfl
  | cons t ts ih => rw [layout, List.flatMap_cons, ih, List.flatten_cons, ofText]

/-- The line breaks of texts that are laid out are those of their text. -/
theorem total_lineBreaks_layout (p : Place) (ts : List Text) :
    total Piece.lineBreaks (layout p ts) = Text.lineBreaks ts.flatten := by
  induction ts generalizing p with
  | nil => rfl
  | cons t ts ih =>
    rw [layout, total_cons, ih, List.flatten_cons, Text.lineBreaks, Text.lineBreaks,
      List.count_append, ofText, Text.lineBreaks]

/-- Texts that are laid out and joined are one text in the place of the first. -/
theorem join_layout (p : Place) (t : Text) (ts : List Text) :
    join (layout p (t :: ts)) = ofText p (t :: ts).flatten := by
  rw [join, flatMap_text_layout, total_lineBreaks_layout]
  rfl

end Piece

/-- What a token is and what it is read from. -/
abbrev Lexeme := TokenKind × Text

namespace Lexeme

def textOf (ls : List Lexeme) : Text := ls.flatMap Prod.snd

@[simp] theorem textOf_nil : textOf [] = [] := rfl

@[simp] theorem textOf_cons (l : Lexeme) (ls : List Lexeme) :
    textOf (l :: ls) = l.2 ++ textOf ls :=
  List.flatMap_cons

@[simp] theorem textOf_append (ls ms : List Lexeme) :
    textOf (ls ++ ms) = textOf ls ++ textOf ms :=
  List.flatMap_append

end Lexeme

namespace Token

/-- Lexemes one behind the other, the first of them at `p`. -/
def layout (p : Place) : List Lexeme → List Token
  | [] => []
  | (kind, t) :: ls =>
    { toPiece := Piece.ofText p t, kind, value := decode kind t } :: layout (p.after t) ls

/-- What is laid out behind some lexemes begins where their text ends. -/
theorem layout_append (p : Place) (ls ms : List Lexeme) :
    layout p (ls ++ ms) = layout p ls ++ layout (p.after (Lexeme.textOf ls)) ms := by
  induction ls generalizing p with
  | nil => rfl
  | cons l ls ih =>
    rw [List.cons_append, layout, layout, ih, Lexeme.textOf_cons, Place.after_append,
      List.cons_append]

theorem length_layout (p : Place) (ls : List Lexeme) : (layout p ls).length = ls.length := by
  induction ls generalizing p with
  | nil => rfl
  | cons l ls ih => rw [layout, List.length_cons, ih, List.length_cons]

/-- Without kinds and values, lexemes are laid out like their texts. -/
theorem map_toPiece_layout (p : Place) (ls : List Lexeme) :
    (layout p ls).map Token.toPiece = Piece.layout p (ls.map Prod.snd) := by
  induction ls generalizing p with
  | nil => rfl
  | cons l ls ih => rw [layout, List.map_cons, ih, List.map_cons, Piece.layout]

/-- Lexemes that are laid out make up their text. -/
theorem flatMap_text_layout (p : Place) (ls : List Lexeme) :
    (layout p ls).flatMap (·.text) = Lexeme.textOf ls := by
  induction ls generalizing p with
  | nil => rfl
  | cons l ls ih =>
    rw [layout, List.flatMap_cons, ih, Lexeme.textOf_cons, Piece.ofText]

/-- A node in place of lexemes is a node for their text. -/
theorem synthesize_layout (kind : TokenKind) (value : Value) (p : Place) (l : Lexeme)
    (ls : List Lexeme) :
    synthesize kind value (layout p (l :: ls)) =
      ⟨Piece.ofText p (Lexeme.textOf (l :: ls)), kind, value⟩ := by
  have htext : ((l :: ls).map Prod.snd).flatten = Lexeme.textOf (l :: ls) :=
    List.flatMap_def.symm
  rw [synthesize, map_toPiece_layout, List.map_cons, Piece.join_layout,
    ← List.map_cons, htext]

end Token

-- ---------------------------------------------------------------------------
-- Reading lexemes
-- ---------------------------------------------------------------------------

namespace Cursor

variable {k : Keywords} {note t rest : Text} {c d e : Cursor} {ls ms : List Lexeme}

/-- The lexer reads some lexemes on its way from one cursor to another. -/
def Lexes (k : Keywords) (c : Cursor) (ls : List Lexeme) (d : Cursor) : Prop :=
  ∃ ss, Run k c ss d ∧ ss.map Step.token = Token.layout c.place ls

theorem Lexes.refl (c : Cursor) : Lexes k c [] c := ⟨[], .nil c, rfl⟩

/-- What is read one after the other is read in one go. -/
theorem Lexes.append (h : Lexes k c ls d) (h' : Lexes k d ms e) : Lexes k c (ls ++ ms) e := by
  obtain ⟨ss, hss, hls⟩ := h
  obtain ⟨ts, hts, hms⟩ := h'
  -- the second reading begins where the text of the first one ends
  have hplace : d.place = c.place.after (Lexeme.textOf ls) := by
    rw [hss.place_eq, ← Token.flatMap_text_layout c.place ls, ← hls, List.flatMap_map]
  refine ⟨ss ++ ts, run_append_iff.2 ⟨d, hss, hts⟩, ?_⟩
  rw [List.map_append, hls, hms, hplace, Token.layout_append]

/-- The first rule that matches makes the next step. -/
theorem exists_step_of_rule {p : Place} {st st' : State} {stack stack' : List State}
    (pre : List Rule) (r : Rule) {post : List Rule} (hrules : st.rules = pre ++ r :: post)
    (hpre : ∀ q ∈ pre, q.pattern.take? (t ++ rest) = none)
    (hr : r.pattern.take? (t ++ rest) = some t.length)
    (hgo : r.transition.apply st stack = (st', stack')) :
    ∃ s, step? k ⟨t ++ rest, p, st, stack⟩ = some s ∧
      s.token = ⟨Piece.ofText p t, (r.emit.read k t).1, (r.emit.read k t).2⟩ ∧
      s.after = ⟨rest, p.after t, st', stack'⟩ := by
  cases hstep : step? k ⟨t ++ rest, p, st, stack⟩ with
  | none =>
    -- there is a step, since a rule matches and takes something
    have hnil : t ++ rest = [] := step?_eq_none_iff.1 hstep
    have hpos := Pattern.take?_pos hr
    rw [(List.append_eq_nil_iff.1 hnil).1] at hpos
    contradiction
  | some s =>
    -- the step is by the rule, and all that is asked of it follows from the rule
    have hby : s.By k _ r := by_of_rule hstep hrules hpre hr
    have hlen : s.token.text.length = t.length := Option.some_inj.1 (hby.take.symm.trans hr)
    obtain ⟨htext, hrest⟩ := List.append_inj hby.rest.symm hlen
    have hread := hby.read
    rw [htext] at hread
    have hgoes := hby.goes.trans hgo
    rw [Prod.mk.injEq] at hgoes
    refine ⟨s, rfl, ?_, ?_⟩
    · calc
        s.token = ⟨s.token.toPiece, s.token.kind, s.token.value⟩ := rfl
        _ = _ := by rw [hby.piece, htext, ← hread]
    · calc
        s.after = ⟨s.after.rest, s.after.place, s.after.state, s.after.stack⟩ := rfl
        _ = _ := by rw [hrest, hby.place, htext, hgoes.1, hgoes.2]

/-- The first rule that matches reads one lexeme. -/
theorem lexes_of_rule {kind : TokenKind} {p : Place} {st st' : State} {stack stack' : List State}
    (pre : List Rule) (r : Rule) {post : List Rule} (hrules : st.rules = pre ++ r :: post)
    (hpre : ∀ q ∈ pre, q.pattern.take? (t ++ rest) = none)
    (hr : r.pattern.take? (t ++ rest) = some t.length) (hemit : r.emit = .token kind)
    (hgo : r.transition.apply st stack = (st', stack')) :
    Lexes k ⟨t ++ rest, p, st, stack⟩ [(kind, t)] ⟨rest, p.after t, st', stack'⟩ := by
  obtain ⟨s, hstep, htoken, hafter⟩ :=
    exists_step_of_rule (k := k) (p := p) pre r hrules hpre hr hgo
  refine ⟨[s], .cons hstep (hafter ▸ .nil _), ?_⟩
  rw [List.map_singleton, htoken, hemit]
  rfl

/-- The steps from a cursor begin with those of a run from it. -/
theorem Run.stepsFrom_eq {ss : List Step} (h : Run k c ss d) :
    c.stepsFrom k [] = ss ++ d.stepsFrom k [] := by
  induction h with
  | nil => rfl
  | cons head _ ih => rw [stepsFrom_cons head, ih, List.cons_append]

/-- A run from the start to the end of a note reads all its tokens. -/
theorem Run.tokenize_eq {ss : List Step} (h : Run k (start note) ss d) (hd : d.rest = []) :
    tokenize k note = ss.map Step.token := by
  rw [Jot.tokenize, steps, h.stepsFrom_eq, stepsFrom_none (step?_eq_none_iff.2 hd),
    List.reverse_nil, List.append_nil]

/-- A note begins with the tokens that are read at its start. -/
theorem Lexes.tokenize (h : Lexes k (start note) ls d) :
    Jot.tokenize k note = Token.layout Place.start ls ++ (d.stepsFrom k []).map Step.token := by
  obtain ⟨ss, hss, hls⟩ := h
  rw [Jot.tokenize, steps, hss.stepsFrom_eq, List.map_append, hls]
  rfl

end Cursor

end Jot
