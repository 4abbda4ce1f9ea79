import Jot.Proofs.Errors
import Jot.Proofs.Layout
import Jot.Proofs.Spans
import Jot.Proofs.Truncation

/-!
# Jot — reactions, written and read

Behind its opener a reaction quotes whatever is written, up to the first closing quote.  Without
one the quote goes up to the last character of the note, which is reported.  Either way nothing in
the quote is read as a mark, and what stands behind it is free text.

* `Cursor.Run.free` — free text leads back neither to the header nor to a reaction;
* `Cursor.lexes_quote` — the lexer takes a quote as a whole;
* `Written.reacts_of_tokens` — what a record says of a reaction and the free text behind it;
* `parse_reaction_print` — an opener with any text behind it.
-/

namespace Jot

-- ---------------------------------------------------------------------------
-- Free text
-- ---------------------------------------------------------------------------

/-- States in which the header and the reaction of a note have been passed. -/
def State.isFree (s : State) : Bool := s.headerRank == 5 && s != .reaction

/-- What is read in free text is no header, opens no reaction and is no broken reaction. -/
structure Token.Free (t : Token) : Prop where
  isHeader  : t.kind.isHeader = false
  kind      : t.kind ≠ .reactionOpen
  violation : ∀ v ∈ t.violation, v.kind ≠ .reaction

/-- Only a rule that reports a kind of violation reads a token with a violation of that kind. -/
theorem Emit.eq_error_of_read {k : Keywords} {t : Text} {e : Emit} {v : Violation}
    (h : (e.read k t).2 = .error v) : e = .error v.kind := by
  cases e with
  | token kind => cases kind <;> contradiction
  | keyword => contradiction
  | error kind => rw [← Value.error.inj h]; rfl

/-- A violation of a token is its value. -/
theorem Token.value_eq_of_violation {t : Token} {v : Violation} (h : t.violation = some v) :
    t.value = .error v := by
  unfold violation at h
  split at h
  · next hv => rw [hv, Option.some.inj h]
  · contradiction

/-- One step in free text reads a free token and stays in free text. -/
theorem Step.By.free {k : Keywords} {c : Cursor} {r : Rule} {s : Step} {n : Nat}
    (h : s.By k c r) (hc : Stacked n c.state c.stack) (hfree : c.state.isFree = true) :
    s.token.Free ∧ s.after.state.isFree = true := by
  obtain ⟨hheader, hopen, hafter⟩ := h.relates
    (Q := fun s kind _ t => s.isFree = true →
      kind.isHeader = false ∧ kind ≠ .reactionOpen ∧ t.isFree = true)
    (by decide) hc hfree
  -- of all rules, only those of the reaction report its violation
  have hemit : r.emit ≠ .error .reaction :=
    State.forall_rules (P := fun s r => s.isFree = true → r.emit ≠ .error .reaction)
      (by decide) h.rule hfree
  refine ⟨⟨hheader, hopen, ?_⟩, hafter⟩
  intro v hv hkind
  have hvalue : (r.emit.read k s.token.text).2 = .error v := by
    rw [← h.read]
    exact Token.value_eq_of_violation hv
  exact hemit (hkind ▸ Emit.eq_error_of_read hvalue)

/-- Free text leads back neither to the header nor to a reaction. -/
theorem Cursor.Run.free {k : Keywords} {c d : Cursor} {ss : List Step} {n : Nat}
    (h : Run k c ss d) (hc : Stacked n c.state c.stack) (hfree : c.state.isFree = true) :
    ∀ t ∈ ss.map Step.token, t.Free := by
  induction h generalizing n with
  | nil => simp
  | cons head _ ih =>
    obtain ⟨r, hr⟩ := exists_rule_of_step? head
    obtain ⟨htoken, hafter⟩ := hr.free hc hfree
    exact List.forall_mem_cons.2 ⟨htoken, ih (hr.stacked hc) hafter⟩

/-- The tokens of a text that is read as free text, from `p` on. -/
def freeTokens (k : Keywords) (p : Place) (t : Text) : List Token :=
  (Cursor.stepsFrom k [] ⟨t, p, .prose, []⟩).map Step.token

theorem freeTokens_nil (k : Keywords) (p : Place) : freeTokens k p [] = [] := by
  rw [freeTokens, Cursor.stepsFrom_none (Cursor.step?_eq_none_iff.2 rfl)]
  rfl

/-- Behind a reaction every token is free. -/
theorem free_of_mem_freeTokens (k : Keywords) (p : Place) (text : Text) :
    ∀ t ∈ freeTokens k p text, t.Free := by
  obtain ⟨d, hrun, -⟩ := Cursor.run_stepsFrom k ⟨text, p, .prose, []⟩
  exact hrun.free (.empty rfl) rfl

theorem tiles_freeTokens (k : Keywords) (p : Place) (text : Text) :
    Piece.Tiles p ((freeTokens k p text).map (·.toPiece)) :=
  Cursor.tiles_stepsFrom k ⟨text, p, .prose, []⟩

theorem flatMap_text_freeTokens (k : Keywords) (p : Place) (text : Text) :
    (freeTokens k p text).flatMap (·.text) = text := by
  rw [freeTokens, List.flatMap_map]
  exact Cursor.flatMap_text_stepsFrom k ⟨text, p, .prose, []⟩

-- ---------------------------------------------------------------------------
-- Openers and quotes
-- ---------------------------------------------------------------------------

namespace ReactionKind

/-- The verb of a reaction as it is written. -/
def written : ReactionKind → Text
  | love => "Loved".toList
  | like => "Liked".toList
  | dislike => "Disliked".toList
  | laugh => "Laughed at".toList
  | question => "Questioned".toList
  | emphasize => "Emphasized".toList

/-- What opens a reaction. -/
def opener (kind : ReactionKind) : Text := kind.written ++ [' ', '“']

/-- The verb in front of a quote names the kind of the reaction. -/
theorem ofOpener?_opener (kind : ReactionKind) : ofOpener? kind.opener = some kind := by
  cases kind <;> decide

/-- A note that begins with a verb and an opening quote is read as a reaction. -/
theorem lexes_opener (k : Keywords) (kind : ReactionKind) (s : Text) :
    Cursor.Lexes k (Cursor.start (kind.opener ++ s)) [(.reactionOpen, kind.opener)]
      ⟨s, Place.start.after kind.opener, .reaction, []⟩ := by
  -- a pin, a date and a folder are looked for first, and begin with other characters
  refine Cursor.lexes_of_rule
    [⟨.pin, .token .pin, .next .pin⟩, Rule.dateTime, Rule.folder (.next .folder)]
    ⟨.reactionOpen, .token .reactionOpen, .next .reaction⟩ rfl ?_ ?_ rfl rfl
  · refine List.forall_mem_cons.2 ⟨?_, List.forall_mem_cons.2 ⟨?_, List.forall_mem_singleton.2 ?_⟩⟩
    all_goals cases kind <;> rfl
  · cases kind <;> rfl

end ReactionKind

/-- The quote of a reaction as the lexer reads it; an empty one leaves no token. -/
def quoteLexemes (body : Text) : List Lexeme := if body = [] then [] else [(.textBlob, body)]

/-- The lexemes of a quote make up its text. -/
theorem textOf_quoteLexemes (body : Text) : Lexeme.textOf (quoteLexemes body) = body := by
  unfold quoteLexemes
  split
  · next h => exact h.symm
  · simp

theorem kind_of_mem_layout_quoteLexemes {p : Place} {body : Text} :
    ∀ t ∈ Token.layout p (quoteLexemes body), t.kind = .textBlob := by
  unfold quoteLexemes
  split <;> simp [Token.layout]

/-- The lexer takes a quote as a whole, be it closed or cut. -/
theorem Cursor.lexes_quote {k : Keywords} {p : Place} {body rest : Text} (hbody : '”' ∉ body)
    (hquote : Recognizer.quotedBody (body ++ rest) = some body.length) :
    Lexes k ⟨body ++ rest, p, .reaction, []⟩ (quoteLexemes body)
      ⟨rest, p.after body, .reaction, []⟩ := by
  unfold quoteLexemes
  split
  -- nothing is quoted, so no lexeme is read
  case isTrue h =>
    subst h
    exact .refl _
  case isFalse h =>
    obtain ⟨x, body, rfl⟩ := List.exists_cons_of_ne_nil h
    have hx : (x == '”') = false := beq_eq_false_iff_ne.2 fun hx => hbody (hx ▸ List.mem_cons_self)
    refine lexes_of_rule [⟨.reactionClose, .token .reactionClose, .next .prose⟩]
      ⟨.textBlob, .token .textBlob, .stay⟩ rfl ?_ ?_ rfl rfl
    · rw [List.forall_mem_singleton]
      simp [Pattern.take?, Pattern.recognizer, Recognizer.char, Recognizer.one, hx]
    · exact Pattern.take?_eq_some_iff.2 ⟨hquote, Nat.succ_pos _⟩

/-- The closing quote leads into free text. -/
theorem Cursor.lexes_close (k : Keywords) (p : Place) (rest : Text) :
    Lexes k ⟨['”'] ++ rest, p, .reaction, []⟩ [(.reactionClose, ['”'])]
      ⟨rest, p.after ['”'], .prose, []⟩ :=
  lexes_of_rule [] ⟨.reactionClose, .token .reactionClose, .next .prose⟩ rfl
    (List.forall_mem_nil _) rfl rfl rfl

/-- What is reported of a quote that is not closed: its last character. -/
def missingQuote (c : Char) : Violation := ⟨.reaction, [c], some "Missing end quote.".toList⟩

/-- The last character of a quote that is never closed is read as an error. -/
theorem Cursor.exists_step_missing (k : Keywords) (p : Place) {x : Char} (hx : x ≠ '”') :
    ∃ s, step? k ⟨[x], p, .reaction, []⟩ = some s ∧
      s.token = ⟨Piece.ofText p [x], .error, .error (missingQuote x)⟩ ∧ s.after.rest = [] := by
  have hx' : '”' ∉ [x] := by simpa using hx.symm
  have hclose : Pattern.reactionClose.take? ([x] ++ []) = none := by
    simp [Pattern.take?, Pattern.recognizer, Recognizer.char, Recognizer.one, hx]
  have hblob : Pattern.textBlob.take? ([x] ++ []) = none := by
    simp [Pattern.take?, Pattern.recognizer, Recognizer.quotedBody_of_not_mem hx']
  obtain ⟨s, hstep, htoken, hafter⟩ : ∃ s, step? k ⟨[x] ++ [], p, .reaction, []⟩ = some s ∧
      s.token = ⟨Piece.ofText p [x], .error, .error (missingQuote x)⟩ ∧
      s.after = ⟨[], p.after [x], .prose, []⟩ := exists_step_of_rule
    [⟨.reactionClose, .token .reactionClose, .next .prose⟩, ⟨.textBlob, .token .textBlob, .stay⟩]
    ⟨.remainder, .error .reaction, .next .prose⟩ rfl
    (List.forall_mem_cons.2 ⟨hclose, List.forall_mem_singleton.2 hblob⟩) rfl rfl
  exact ⟨s, hstep, htoken, congrArg (·.rest) hafter⟩

/-- The reader of reactions keeps the quote. -/
theorem Reaction.readBody_quoteLexemes (i : Nat) (p : Place) (body : Text) (ts : List Token) :
    readBody i [] (Token.layout p (quoteLexemes body) ++ ts) =
      readBody (i + (quoteLexemes body).length) body ts := by
  unfold quoteLexemes
  split
  · next h => rw [h]; rfl
  · rfl

-- ---------------------------------------------------------------------------
-- Records
-- ---------------------------------------------------------------------------

/-- What a record captures outside the header, reactions apart. -/
def Record.marks (r : Record) : List Piece :=
  r.tag.map (·.toPiece) ++ r.mention.map (·.toPiece) ++ r.event.map (·.toPiece) ++
    r.url.map (·.toPiece) ++ r.bean.map (·.toPiece) ++ r.cell.map (·.toPiece) ++
    r.link.map (·.toPiece) ++ r.formula.map (·.toPiece)

/-- A record without a header. -/
structure Record.Headless (r : Record) : Prop where
  pin    : r.pin = none
  date   : r.date = none
  folder : r.folder = []
  todo   : r.todo = none
  done   : r.done = none

/-- A capture of plain text stands where its node does. -/
theorem Node.toPiece_of_textOf {kind : TokenKind} {n : Node} {e : Capture Text}
    (h : textOf kind n = some e) : e.toPiece = n.token.toPiece := by
  unfold textOf at h
  split at h
  · split at h
    · exact congrArg (·.toPiece) (Option.some.inj h).symm
    · contradiction
  · contradiction

/-- Marks stand where the nodes do that they are read from. -/
theorem Record.exists_node_of_mem_marks {ns : List Node} {p : Piece}
    (h : p ∈ (ofNodes ns).marks) : p ∈ ns.map (·.token.toPiece) := by
  have text {kind : TokenKind} (h : p ∈ (ns.filterMap (Node.textOf kind)).map (·.toPiece)) :
      p ∈ ns.map (·.token.toPiece) := by
    obtain ⟨e, he, rfl⟩ := List.mem_map.1 h
    obtain ⟨n, hn, hentry⟩ := List.mem_filterMap.1 he
    exact List.mem_map.2 ⟨n, hn, (Node.toPiece_of_textOf hentry).symm⟩
  have value {α : Type} {entry : Node → Option (Capture α)} {mk : α → Value}
      (hentry : Dispatches entry mk) (h : p ∈ (ns.filterMap entry).map (·.toPiece)) :
      p ∈ ns.map (·.token.toPiece) := by
    obtain ⟨e, he, rfl⟩ := List.mem_map.1 h
    exact hentry.toPiece he
  -- tags, mentions, events, addresses, beans, cells, links and formulas, as the marks list them
  simp only [marks, List.mem_append] at h
  obtain ((((((h | h) | h) | h) | h) | h) | h) | h := h
  · exact text h
  · exact text h
  · exact value dispatches_event h
  · exact text h
  · exact value dispatches_bean h
  · exact value dispatches_cell h
  · exact value dispatches_link h
  · exact value dispatches_formula h

/-- A reaction is none of the marks. -/
theorem Record.marks_cons_reaction {n : Node} {x : Reaction} (h : n.token.value = .reaction x)
    (ns : List Node) : (ofNodes (n :: ns)).marks = (ofNodes ns).marks := by
  simp [marks, ofNodes, Node.textOf, Node.event?, Node.bean?, Node.cell?, Node.link?,
    Node.formula?, h]

theorem capturesOf_eq_nil {α : Type} {kind : TokenKind} {read : Text → α} {tokens : List Token}
    (h : ∀ t ∈ tokens, t.kind ≠ kind) : capturesOf kind read tokens = [] := by
  have happend := capturesOf_append_of_ne read h []
  rwa [List.append_nil] at happend

/-- A record has no header if no token of the note belongs to one. -/
theorem headless_parse {k : Keywords} {note : Text}
    (h : ∀ t ∈ tokenize k note, t.kind.isHeader = false) : (parse k note).Headless := by
  have hne {kind : TokenKind} (hkind : kind.isHeader = true) :
      ∀ t ∈ tokenize k note, t.kind ≠ kind := by
    rintro t ht rfl
    rw [h t ht] at hkind
    contradiction
  have last {α : Type} {entry : Node → Option (Capture α)} {kind : TokenKind} {read : Text → α}
      {m : Nat} (hlists : Lists entry kind read) (hm : kind.lastRank? = some m)
      (hkind : kind.isHeader = true) :
      ((nodes (tokenize k note)).filterMap entry).getLast? = none := by
    have hlast := hlists.toList_getLast? k note hm
    rwa [capturesOf_eq_nil (hne hkind), Option.toList_eq_nil_iff] at hlast
  refine {
    pin    := last (lists_textOf (fun _ => rfl) rfl) rfl rfl
    date   := last (dispatches_date.lists (fun _ => rfl) (fun _ => rfl) rfl) rfl rfl
    folder := ?_
    todo   := last (lists_textOf (fun _ => rfl) rfl) rfl rfl
    done   := last (lists_textOf (fun _ => rfl) rfl) rfl rfl }
  exact ((lists_textOf (fun _ => rfl) rfl).filterMap_nodes k note).trans
    (capturesOf_eq_nil (hne rfl))

/-- The nodes of free text are no reactions. -/
theorem filterMap_reaction_eq_nil {tokens : List Token} (hd : ∀ t ∈ tokens, t.Decoded)
    (hfree : ∀ t ∈ tokens, t.Free) : (nodes tokens).filterMap Node.reaction? = [] := by
  -- reactions stand where their openers do, and there is none
  have hplaces := ((cuts_nodes tokens).collects (c := .reaction) dispatches_reaction
    (fun v => by cases v <;> simp [Construct.holds]) hd).places
  have hnone : (tokens.filter fun t => t.kind = Construct.reaction.opener) = [] :=
    List.filter_eq_nil_iff.2 fun t ht => by
      rw [decide_eq_true_eq]
      exact (hfree t ht).kind
  rw [hnone] at hplaces
  exact List.map_eq_nil_iff.1 hplaces

/-- What the reader of reactions takes becomes one node. -/
theorem nodes_of_readBody {o : Token} {more later : List Token} {body : Text} {e : Option Token}
    (ho : o.kind = .reactionOpen)
    (hread : Reaction.readBody 1 [] (more ++ later) = ⟨(o :: more).length, body, e⟩) :
    nodes (o :: (more ++ later)) =
      ⟨Token.synthesize .reaction (.reaction ⟨ReactionKind.ofOpener? o.text, body⟩) (o :: more),
        e⟩ :: nodes later := by
  have hconstruct : Node.construct? (o :: (more ++ later)) = some (Reading.ofTokens .reaction
      (.reaction ⟨ReactionKind.ofOpener? o.text, body⟩) (o :: (more ++ later))
      (o :: more).length e) := by
    rw [Node.construct?_of_opener (c := .reaction) ho]
    refine (if_pos ho).trans ?_
    rw [hread]
  rw [nodes_cons_of_construct hconstruct]
  simp [Reading.ofTokens]

namespace Written

/-- A note is a reaction, written as `taken`, with free text behind it. -/
structure Reacts (k : Keywords) (note taken rest : Text) (x : Reaction) (e : Option Violation) :
    Prop where
  split    : note = taken ++ rest
  reaction : (parse k note).reaction = some ⟨Piece.ofText Place.start taken, .reaction, x, e⟩
  tokens   : ∃ front, tokenize k note = front ++ freeTokens k (Place.start.after taken) rest ∧
    front.flatMap (·.text) = taken
  /-- Nothing in the note belongs to a header, and the reaction is the only one. -/
  header   : ∀ t ∈ tokenize k note, t.kind.isHeader = false
  once     : ((tokenize k note).filter fun t => t.kind = .reactionOpen).length = 1
  headless : (parse k note).Headless
  /-- All marks are read from the free text and stand in it. -/
  marks    : (parse k note).marks =
    (Record.assemble (freeTokens k (Place.start.after taken) rest)).marks
  behind   : ∀ p ∈ (parse k note).marks, taken.byteSize ≤ p.offset

/-- A note whose tokens are an opener, what the reader of reactions takes behind it, and free text,
is that reaction. -/
theorem reacts_of_tokens {k : Keywords} {note taken rest body : Text} {o : Token}
    {more : List Token} {e : Option Token} {kind : Option ReactionKind}
    (ho : o.kind = .reactionOpen) (hkind : ReactionKind.ofOpener? o.text = kind)
    (hmore : ∀ t ∈ more, t.kind.isHeader = false ∧ t.kind ≠ .reactionOpen)
    (htext : (o :: more).flatMap (·.text) = taken)
    (htokens : tokenize k note = o :: (more ++ freeTokens k (Place.start.after taken) rest))
    (hread : Reaction.readBody 1 [] (more ++ freeTokens k (Place.start.after taken) rest) =
      ⟨(o :: more).length, body, e⟩) :
    Reacts k note taken rest ⟨kind, body⟩ (e.bind Token.violation) := by
  have hlater := free_of_mem_freeTokens k (Place.start.after taken) rest
  have hdecoded : ∀ t ∈ freeTokens k (Place.start.after taken) rest, t.Decoded := fun t ht =>
    decoded_of_mem_tokenize (htokens ▸ List.mem_cons_of_mem _ (List.mem_append_right _ ht))
  -- the tokens up to the free text tile the written reaction, so they are joined to it
  have hpiece : Piece.join ((o :: more).map (·.toPiece)) = Piece.ofText Place.start taken := by
    have hnote := tiles_tokenize k note
    rw [htokens, ← List.cons_append, List.map_append] at hnote
    rw [← htext, ← List.flatMap_map Token.toPiece Piece.text]
    exact (Piece.tiles_append.1 hnote).1.join
  have hnodes := nodes_of_readBody ho hread
  rw [← htokens, hkind] at hnodes
  have hheader : ∀ t ∈ tokenize k note, t.kind.isHeader = false := by
    rw [htokens]
    refine List.forall_mem_cons.2 ⟨by rw [ho]; rfl, List.forall_mem_append.2 ⟨?_, ?_⟩⟩
    · exact fun t ht => (hmore t ht).1
    · exact fun t ht => (hlater t ht).isHeader
  have hmarks : (parse k note).marks =
      (Record.assemble (freeTokens k (Place.start.after taken) rest)).marks := by
    rw [parse, Record.assemble, hnodes]
    exact Record.marks_cons_reaction rfl _
  refine {
    split    := ?_
    reaction := ?_
    tokens   := ⟨o :: more, htokens, htext⟩
    header   := hheader
    once     := ?_
    headless := headless_parse hheader
    marks    := hmarks
    behind   := ?_ }
  · rw [← flatMap_text_tokenize k note, htokens, ← List.cons_append, List.flatMap_append, htext,
      flatMap_text_freeTokens]
  · have hentry : (nodes (tokenize k note)).filterMap Node.reaction? =
        [⟨Piece.ofText Place.start taken, .reaction, ⟨kind, body⟩, e.bind Token.violation⟩] := by
      rw [hnodes, List.filterMap_cons, filterMap_reaction_eq_nil hdecoded hlater, ← hpiece]
      rfl
    exact congrArg List.getLast? hentry
  · have hnone : ∀ t ∈ more ++ freeTokens k (Place.start.after taken) rest,
        t.kind ≠ .reactionOpen :=
      List.forall_mem_append.2 ⟨fun t ht => (hmore t ht).2, fun t ht => (hlater t ht).kind⟩
    rw [htokens, List.filter_cons_of_pos (by simpa using ho), ← List.append_nil (more ++ _),
      filter_kind_append_of_ne hnone]
    rfl
  · -- marks stand at nodes of the free text, which begins behind the reaction
    intro p hp
    rw [hmarks] at hp
    have hnodes := (cuts_nodes _).tiles (tiles_freeTokens k (Place.start.after taken) rest)
    have hle := hnodes.offset_le p (Record.exists_node_of_mem_marks hp)
    rwa [Place.offset_after, Place.start, Nat.zero_add] at hle

/-- What becomes of the text behind the opener of a reaction. -/
inductive Quotes (k : Keywords) (kind : ReactionKind) : Text → Prop
  /-- The quote ends at the first closing one, and is not reported. -/
  | closed {body rest : Text} (hbody : '”' ∉ body)
      (reacts : Reacts k (kind.opener ++ (body ++ '”' :: rest)) (kind.opener ++ (body ++ ['”']))
        rest ⟨some kind, body⟩ none)
      (sound : ∀ e ∈ (parse k (kind.opener ++ (body ++ '”' :: rest))).error,
        e.value.kind ≠ .reaction) :
      Quotes k kind (body ++ '”' :: rest)
  /-- Without a closing quote, the last character is left out and reported, and nothing else. -/
  | cut {body : Text} {x : Char} (hbody : '”' ∉ body ++ [x])
      (reacts : Reacts k (kind.opener ++ (body ++ [x])) (kind.opener ++ (body ++ [x])) []
        ⟨some kind, body⟩ (some (missingQuote x)))
      (error : (parse k (kind.opener ++ (body ++ [x]))).error =
        [⟨Piece.ofText (Place.start.after (kind.opener ++ body)) [x], .error, missingQuote x,
          none⟩]) :
      Quotes k kind (body ++ [x])
  | empty (reacts : Reacts k kind.opener kind.opener [] ⟨some kind, []⟩ none)
      (sound : (parse k kind.opener).error = []) : Quotes k kind []

/-- A reaction is its opener, the quote, and how the quote ends. -/
theorem reacts_of_ending {k : Keywords} {kind : ReactionKind} {s body taken rest : Text}
    {ending : List Token} {e : Option Token}
    (htokens : tokenize k (kind.opener ++ s) =
      Token.layout Place.start ((.reactionOpen, kind.opener) :: quoteLexemes body) ++ ending ++
        freeTokens k (Place.start.after taken) rest)
    (htaken : taken = kind.opener ++ (body ++ ending.flatMap (·.text)))
    (hending : ∀ t ∈ ending, t.kind.isHeader = false ∧ t.kind ≠ .reactionOpen)
    (hread : ∀ i, Reaction.readBody i body (ending ++ freeTokens k (Place.start.after taken) rest) =
      ⟨i + ending.length, body, e⟩) :
    Reacts k (kind.opener ++ s) taken rest ⟨some kind, body⟩ (e.bind Token.violation) := by
  have hopened : tokenize k (kind.opener ++ s) =
      ⟨Piece.ofText Place.start kind.opener, .reactionOpen, .text kind.opener⟩ ::
        ((Token.layout (Place.start.after kind.opener) (quoteLexemes body) ++ ending) ++
          freeTokens k (Place.start.after taken) rest) := htokens
  refine reacts_of_tokens rfl ?_ ?_ ?_ hopened ?_
  · exact kind.ofOpener?_opener
  · refine List.forall_mem_append.2 ⟨fun t ht => ?_, hending⟩
    rw [kind_of_mem_layout_quoteLexemes t ht]
    exact ⟨rfl, nofun⟩
  · rw [List.flatMap_cons, List.flatMap_append, Token.flatMap_text_layout, textOf_quoteLexemes,
      htaken]
    rfl
  · rw [List.append_assoc, Reaction.readBody_quoteLexemes, hread]
    simp only [List.length_cons, List.length_append, Token.length_layout]
    congr 1
    omega

/-- The tokens of the opener and the quote are no errors. -/
theorem error_of_ending {k : Keywords} {kind : ReactionKind} {s body : Text}
    {later : List Token}
    (htokens : tokenize k (kind.opener ++ s) =
      Token.layout Place.start ((.reactionOpen, kind.opener) :: quoteLexemes body) ++ later) :
    (parse k (kind.opener ++ s)).error = later.filterMap Node.violationOf := by
  have hnone : (Token.layout Place.start
      ((.reactionOpen, kind.opener) :: quoteLexemes body)).filterMap Node.violationOf = [] := by
    unfold quoteLexemes
    split <;> rfl
  rw [error_parse, htokens, List.filterMap_append, hnone, List.nil_append]

/-- Up to its first closing quote a reaction is read as it is written. -/
theorem quotes_closed (k : Keywords) (kind : ReactionKind) {body : Text} (hbody : '”' ∉ body)
    (rest : Text) : Quotes k kind (body ++ '”' :: rest) := by
  have hlexes := ((kind.lexes_opener k (body ++ '”' :: rest)).append (Cursor.lexes_quote hbody
    (Recognizer.quotedBody_append_close hbody rest))).append (Cursor.lexes_close k _ rest)
  have htokens := hlexes.tokenize
  rw [Token.layout_append, ← Place.after_append, ← Place.after_append] at htokens
  have hreacts := reacts_of_ending (e := none) htokens rfl
    (List.forall_mem_singleton.2 ⟨rfl, nofun⟩) fun i => rfl
  refine .closed hbody hreacts ?_
  rw [List.append_assoc] at htokens
  rw [error_of_ending htokens]
  intro e he
  obtain ⟨t, ht, hentry⟩ := List.mem_filterMap.1 he
  obtain ⟨v, hv, rfl⟩ := Option.map_eq_some_iff.1 hentry
  rcases List.mem_append.1 ht with ht | ht
  · rw [List.mem_singleton.1 ht] at hv
    contradiction
  · exact (free_of_mem_freeTokens k _ rest t ht).violation v hv

/-- Without a closing quote a reaction goes up to the last character, which is reported. -/
theorem quotes_cut (k : Keywords) (kind : ReactionKind) {body : Text} {x : Char}
    (hbody : '”' ∉ body ++ [x]) : Quotes k kind (body ++ [x]) := by
  have hsplit : '”' ∉ body ∧ x ≠ '”' := by simpa [eq_comm] using hbody
  have hquote : Recognizer.quotedBody (body ++ [x]) = some body.length := by
    rw [Recognizer.quotedBody_of_not_mem hbody, List.length_append, List.length_singleton,
      Nat.add_sub_cancel]
  -- the pattern of the quote leaves one character over, where no rule but that of the error matches
  obtain ⟨ss, hrun, hss⟩ := (kind.lexes_opener k (body ++ [x])).append
    (Cursor.lexes_quote hsplit.1 hquote)
  obtain ⟨s, hstep, htoken, hend⟩ := Cursor.exists_step_missing k
    ((Place.start.after kind.opener).after body) hsplit.2
  rw [← Place.after_append] at htoken
  have hall := Cursor.run_append_iff.2 ⟨_, hrun, .cons hstep (.nil s.after)⟩
  have htokens := hall.tokenize_eq hend
  rw [List.map_append, hss, List.map_singleton, htoken] at htokens
  have hfree : tokenize k (kind.opener ++ (body ++ [x])) =
      Token.layout Place.start ((.reactionOpen, kind.opener) :: quoteLexemes body) ++
        [⟨Piece.ofText (Place.start.after (kind.opener ++ body)) [x], .error,
          .error (missingQuote x)⟩] ++
        freeTokens k (Place.start.after (kind.opener ++ (body ++ [x]))) [] := by
    rw [freeTokens_nil, List.append_nil]
    exact htokens
  have hreacts := reacts_of_ending hfree rfl (List.forall_mem_singleton.2 ⟨rfl, nofun⟩)
    fun i => rfl
  exact .cut hbody hreacts (error_of_ending htokens)

/-- A note that ends with the opening quote is an empty reaction, without an error. -/
theorem quotes_empty (k : Keywords) (kind : ReactionKind) : Quotes k kind [] := by
  have htokens := (kind.lexes_opener k []).tokenize
  rw [Cursor.stepsFrom_none (Cursor.step?_eq_none_iff.2 rfl)] at htokens
  have hfree : tokenize k (kind.opener ++ []) =
      Token.layout Place.start ((.reactionOpen, kind.opener) :: quoteLexemes []) ++ [] ++
        freeTokens k (Place.start.after kind.opener) [] := by
    rw [freeTokens_nil]
    exact htokens
  have hreacts := reacts_of_ending (e := none) hfree (by simp) (List.forall_mem_nil _)
    fun i => by rw [freeTokens_nil]; rfl
  rw [List.append_assoc, freeTokens_nil] at hfree
  have herror := error_of_ending hfree
  rw [List.append_nil] at hreacts herror
  exact .empty hreacts herror

end Written

/-- **A reaction quotes what is written.**  Behind the opener of any kind of reaction any text may
stand: what comes before the first closing quote is quoted as it is, or, where there is none, all
but the last character, and behind the quote the note is free text. -/
theorem parse_reaction_print (k : Keywords) (kind : ReactionKind) (s : Text) :
    Written.Quotes k kind s := by
  -- the first closing quote ends the quote, wherever else there are some
  by_cases hs : '”' ∈ s
  · obtain ⟨body, rest, rfl, hbody⟩ := List.eq_append_cons_of_mem hs
    exact Written.quotes_closed k kind hbody rest
  · rcases List.eq_nil_or_concat s with rfl | ⟨body, x, rfl⟩
    · exact Written.quotes_empty k kind
    · rw [List.concat_eq_append] at hs ⊢
      exact Written.quotes_cut k kind hs

end Jot
