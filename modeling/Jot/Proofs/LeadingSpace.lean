import Jot.Proofs.Layout
import Jot.Proofs.Position
import Jot.Proofs.Relocation
import Jot.Proofs.WhiteSpace

/-!
# Jot — white space in front of a note

At the start of a note the lexer passes over white space and is again at the start.  From there on
it goes by the state and the text that is left, never by the place; so a note behind white space is
read as the note is, with all places moved.

* `Place.start_after_append` — places behind a text are those of a note, moved;
* `Cursor.Run.relocate` — a run from another place;
* `parse_append_of_blank` — tokens and record of a note behind white space.
-/

namespace Jot

-- ---------------------------------------------------------------------------
-- Places behind a text
-- ---------------------------------------------------------------------------

/-- The characters since the last line feed go back into the text in front where the one behind has
no line feed. -/
theorem Text.sinceLineFeed_append (s t : Text) :
    (s ++ t).sinceLineFeed =
      if t.lineBreaks = 0 then s.sinceLineFeed + t.sinceLineFeed else t.sinceLineFeed := by
  induction t using List.reverseRecOn with
  | nil => rw [List.append_nil]; rfl
  | append_singleton t c ih =>
    rw [← List.append_assoc, sinceLineFeed_append_singleton, sinceLineFeed_append_singleton,
      lineBreaks_append_singleton, ih]
    by_cases hc : c = '\n'
    · simp [hc]
    · simp only [if_neg hc]
      split <;> omega

namespace Place

/-- The same place, when the text `w` stands in front of the note: as many bytes and lines further,
and in the first line as many columns as there are behind the last line feed of `w`. -/
def behind (w : Text) (p : Place) : Place :=
  { offset := p.offset + w.byteSize
    line   := p.line + w.lineBreaks
    col    := if p.line = 1 then p.col + w.sinceLineFeed else p.col }

/-- The place behind a text and a note is the place behind the note, moved by the text. -/
theorem start_after_append (w t : Text) : start.after (w ++ t) = (start.after t).behind w := by
  have hlines : (w ++ t).lineBreaks = t.lineBreaks + w.lineBreaks := by
    rw [Text.lineBreaks, List.count_append, Nat.add_comm]
    rfl
  rw [after_start, after_start, behind, Text.byteSize_append, hlines, Text.sinceLineFeed_append,
    Nat.add_comm w.byteSize, Nat.add_assoc]
  -- only the first line of the note goes on from the text in front
  by_cases hline : t.lineBreaks = 0
  · simp [hline, Nat.add_comm w.sinceLineFeed, Nat.add_assoc]
  · simp [hline]

/-- From `p` on, `σ` moves all places alike. -/
def MovesFrom (σ : Place → Place) (p : Place) : Prop := ∀ t, σ (p.after t) = (σ p).after t

theorem MovesFrom.after {σ : Place → Place} {p : Place} (h : MovesFrom σ p) (t : Text) :
    MovesFrom σ (p.after t) := by
  intro u
  rw [← after_append, h, after_append, h]

/-- The start of a note, moved by a text, is the place behind that text. -/
theorem start_behind (w : Text) : start.behind w = start.after w := by
  have happend := start_after_append w []
  rw [List.append_nil, after_nil] at happend
  exact happend.symm

/-- A text in front moves all places of a note alike. -/
theorem movesFrom_behind (w : Text) : MovesFrom (behind w) start := by
  intro t
  rw [← start_after_append, after_append, start_behind]

end Place

-- ---------------------------------------------------------------------------
-- The lexer from another place
-- ---------------------------------------------------------------------------

/-- What the lexer reads holds no place besides that of the token. -/
theorem Emit.relocate_read (e : Emit) (k : Keywords) (t : Text) (σ : Place → Place) :
    (e.read k t).2.relocate σ = (e.read k t).2 := by
  cases e with
  | token kind => cases kind <;> rfl
  | keyword | error v => rfl

/-- The lexer at another place. -/
def Cursor.relocate (σ : Place → Place) (c : Cursor) : Cursor := { c with place := σ c.place }

/-- The step at another place. -/
def Step.relocate (σ : Place → Place) (s : Step) : Step :=
  ⟨s.before.relocate σ, s.token.relocate σ, s.choice, s.after.relocate σ⟩

namespace Cursor

variable {k : Keywords} {c d : Cursor} {ss : List Step} {σ : Place → Place}

/-- A step at another place is the same step, moved. -/
theorem step?_relocate (k : Keywords) (h : Place.MovesFrom σ c.place) :
    (c.relocate σ).step? k = (c.step? k).map (Step.relocate σ) := by
  unfold step?
  have hrest : (c.relocate σ).rest = c.rest := rfl
  rw [hrest]
  split
  · rfl
  · have hplace := h (c.rest.take (c.state.choose c.rest).length)
    simp only [Option.map_some, relocate, Step.relocate, Token.relocate, Emit.relocate_read, hplace]
    rfl

/-- A run from another place is the same run, moved. -/
theorem Run.relocate (h : Run k c ss d) (hc : Place.MovesFrom σ c.place) :
    Run k (c.relocate σ) (ss.map (Step.relocate σ)) (d.relocate σ) := by
  induction h with
  | nil c => exact .nil _
  | @cons c d s ss head _ ih =>
    have hstep := step?_relocate k hc
    obtain ⟨r, hr⟩ := exists_rule_of_step? head
    rw [head] at hstep
    exact .cons hstep (ih (hr.place ▸ hc.after _))

/-- What is read from another place on are the same tokens at other places. -/
theorem stepsFrom_relocate (k : Keywords) (h : Place.MovesFrom σ c.place) :
    ((c.relocate σ).stepsFrom k []).map Step.token =
      ((c.stepsFrom k []).map Step.token).map (Token.relocate σ) := by
  obtain ⟨d, hrun, hd⟩ := run_stepsFrom k c
  have hd' : (d.relocate σ).rest = [] := hd
  rw [(hrun.relocate h).stepsFrom_eq, stepsFrom_none (step?_eq_none_iff.2 hd'), List.reverse_nil,
    List.append_nil, List.map_map, List.map_map]
  rfl

end Cursor

-- ---------------------------------------------------------------------------
-- Notes behind white space
-- ---------------------------------------------------------------------------

variable {w note : Text}

/-- The token of white space at the start of a note. -/
def leadingSpace (w : Text) : Token := ⟨Piece.ofText Place.start w, .space, .text w⟩

/-- Behind white space a note is read from the start, at other places. -/
theorem tokenize_append_of_blank (k : Keywords) (hw : w ≠ [])
    (hblank : ∀ c ∈ w, isBlank c = true) (hnote : note.StartsIn fun c => !isBlank c) :
    tokenize k (w ++ note) =
      leadingSpace w :: (tokenize k note).map (Token.relocate (Place.behind w)) := by
  obtain ⟨c, v, rfl⟩ := List.exists_cons_of_ne_nil hw
  have hc : isBlank c = true := hblank c List.mem_cons_self
  have hrules : State.start.rules = State.start.beforeSpace ++ Rule.space .stay :: [] := rfl
  -- no rule in front of that for white space matches a blank
  have hpre : ∀ q ∈ State.start.beforeSpace, q.pattern.take? (c :: v ++ note) = none :=
    State.take?_beforeSpace (by decide) hc (v ++ note)
  have htake : Pattern.whitespace.take? (c :: v ++ note) = some (c :: v).length := by
    rw [Pattern.take?_eq_some_iff]
    refine ⟨Recognizer.many1_eq_some_iff.2 ⟨Nat.succ_pos _, ?_⟩, Nat.succ_pos _⟩
    rw [Text.takeWhile_append_of_startsIn hblank hnote]
  have hstay : Transition.stay.apply State.start [] = (State.start, []) := rfl
  obtain ⟨s, hstep, htoken, hafter⟩ :=
    Cursor.exists_step_of_rule (k := k) (p := Place.start) _ _ hrules hpre htake hstay
  -- the lexer is at the start again, only further on in the text
  have hstart : s.after = (Cursor.start note).relocate (Place.behind (c :: v)) := by
    rw [hafter, Cursor.relocate, Cursor.start, Place.start_behind]
  have hlater := Cursor.stepsFrom_relocate (c := Cursor.start note) k
    (Place.movesFrom_behind (c :: v))
  have hfirst : (Cursor.start (c :: v ++ note)).stepsFrom k [] = s :: s.after.stepsFrom k [] :=
    Cursor.stepsFrom_cons hstep
  rw [tokenize, steps, hfirst, List.map_cons, htoken, hstart, hlater]
  rfl

/-- A token of white space is no entry of a record. -/
theorem Record.besidesText_assemble_cons_of_blank (hblank : ∀ c ∈ w, isBlank c = true)
    (ts : List Token) :
    (assemble (leadingSpace w :: ts)).besidesText = (assemble ts).besidesText := by
  have hplain : ∀ c : Construct, TokenKind.space ≠ c.opener := by
    intro c
    cases c <;> decide
  have hbody (t : Text) : Text.trim (w ++ t) = Text.trim t := Text.trim_append_of_blank hblank t
  rw [assemble, assemble, nodes_cons_of_plain (Node.construct?_eq_none hplain ts)]
  simp [besidesText, ofNodes, List.filterMap_cons, Node.date?, Node.textOf, Node.reaction?,
    Node.event?, Node.bean?, Node.cell?, Node.link?, Node.formula?, Node.violations,
    Node.violationOf, Token.violation, leadingSpace, hbody, TokenKind.isHeader, Piece.ofText]

/-- **White space in front of a note does not change how it is read.**  The white space is one
token, the tokens of the note follow, moved but otherwise the same, and so are the body and all
entries of the record, calls inside formulas included. -/
theorem parse_append_of_blank (k : Keywords) (hw : w ≠ [])
    (hblank : ∀ c ∈ w, isBlank c = true) (hnote : note.StartsIn fun c => !isBlank c) :
    tokenize k (w ++ note) = ⟨Piece.ofText Place.start w, .space, .text w⟩ ::
        (tokenize k note).map (fun t => { t with toPlace := t.toPlace.behind w }) ∧
      (parse k (w ++ note)).besidesText =
        ((parse k note).relocate (Place.behind w)).besidesText := by
  have htokens := tokenize_append_of_blank k hw hblank hnote
  constructor
  · rw [htokens]
    refine congrArg (leadingSpace w :: ·) (List.map_congr_left fun t ht => ?_)
    exact (decoded_of_mem_tokenize ht).relocate_eq
  · rw [parse, htokens, Record.besidesText_assemble_cons_of_blank hblank,
      Record.besidesText_assemble_relocate]
    rfl

/-- Behind a line of white space and one more blank, a formula of two lines is the same formula. -/
theorem parse_append_of_blank_lines :
    let w : Text := " \n\u3000".toList
    let note : Text := "$$()\n(+ 1 (* 2 3))".toList
    w ≠ [] ∧ (∀ c ∈ w, isBlank c = true) ∧ note.StartsIn (fun c => !isBlank c) ∧
      tokenize Keywords.standard (w ++ note) = ⟨Piece.ofText Place.start w, .space, .text w⟩ ::
        (tokenize Keywords.standard note).map (fun t => { t with toPlace := t.toPlace.behind w }) ∧
      (parse Keywords.standard (w ++ note)).besidesText =
        ((parse Keywords.standard note).relocate (Place.behind w)).besidesText := by
  intro w note
  have hw : w ≠ [] := by decide
  have hblank : ∀ c ∈ w, isBlank c = true := List.all_eq_true.1 (by decide)
  have hnote : note.StartsIn fun c => !isBlank c := fun c hc => by cases hc; rfl
  exact ⟨hw, hblank, hnote, parse_append_of_blank Keywords.standard hw hblank hnote⟩

/-- The columns of the first line move, those of the second do not. -/
example :
    let places (note : String) := (tokenize Keywords.standard note.toList).map (·.toPlace)
    places "#a\n#b" = [⟨0, 1, 1⟩, ⟨2, 1, 3⟩, ⟨3, 2, 1⟩] ∧
      places " \n\u3000#a\n#b" = [⟨0, 1, 1⟩, ⟨5, 2, 2⟩, ⟨7, 2, 4⟩, ⟨8, 3, 1⟩] := by
  decide +kernel

end Jot
