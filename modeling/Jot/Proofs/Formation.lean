import Jot.Proofs.Agreement
import Jot.Proofs.Call.Orderly
import Jot.Proofs.Ownership

/-!
# Jot — the form of calls

Every call in a record was read at a parenthesis of the note, from tokens that the lexer has put in
order.  So a call without an operator has nothing else either, and is not closed; and a formula that
neither an error nor the end of the note has ended has a procedure, closed at every depth.

* `Formula.outcome_readProcedure`, `Formula.outcome_readSetup` — how a formula can end, along a run
  of the lexer;
* `exists_outcome_of_mem_formula` — the same for the formulas of a record;
* `parse_formed` — the form of all calls, and when they are closed.
-/

namespace Jot

variable {k : Keywords} {note : Text} {b d : Cursor} {s : Step} {ss : List Step} {n : Nat}
  {t : Token} {tokens taken rest : List Token} {c : Call} {e : Call.Ending}

-- ---------------------------------------------------------------------------
-- How a formula ends
-- ---------------------------------------------------------------------------

namespace Formula

/-- What can become of the call of a formula among some tokens, at whose end `size` tokens of the
formula have been read: they end before it, an error token comes before it, or it is read. -/
inductive Outcome (tokens : List Token) (size : Nat) : Reading (Option Call) → Prop
  | ended : Outcome tokens size ⟨size, none, none⟩
  | failed (i : Nat) (t : Token) : Outcome tokens size ⟨i, none, some t⟩
  | call {t : Token} {taken rest : List Token} {c : Call} {e : Call.Ending} {i : Nat}
      (suffix : t :: (taken ++ rest) <:+ tokens) (opens : t.kind = .lparen)
      (orderly : Call.Orderly .operator (Frame.enter t) taken rest c e)
      (consumed : i + rest.length = size) : Outcome tokens size ⟨i, some c, e.error⟩

/-- A token in front changes nothing about how a formula ends. -/
theorem Outcome.cons {size : Nat} {r : Reading (Option Call)} (h : Outcome tokens size r)
    (t : Token) : Outcome (t :: tokens) size r := by
  cases h with
  | ended => exact .ended
  | failed i t => exact .failed i t
  | call suffix opens orderly consumed =>
    exact .call (suffix.trans (List.suffix_cons t tokens)) opens orderly consumed

/-- In front of its call the reader of a formula meets spaces, then the call, an error or the end of
the note. -/
theorem outcome_readProcedure (h : Cursor.Run k b ss d) (hb : Stacked n b.state b.stack)
    (hs : b.state = .formula .procedure) {i size : Nat} (hsize : i + ss.length = size) :
    Outcome (ss.map Step.token) size (readProcedure i (ss.map Step.token)) := by
  induction h generalizing n i with
  | nil => exact hsize ▸ .ended
  | @cons b d s ss head tail ih =>
    obtain ⟨r, hr⟩ := Cursor.exists_rule_of_step? head
    have hstack := hr.stacked hb
    rw [List.length_cons] at hsize
    rw [List.map_cons, readProcedure]
    -- the rules of the state: a space, the parenthesis of the call, anything else
    rcases hr.procedure_cases hb hs with ⟨hk, ht⟩ | ⟨hk, ht⟩ | ⟨hk, ht⟩
    · simp only [hk]
      exact (ih hstack ht (i := i + 1) (by omega)).cons s.token
    · obtain ⟨taken, rest, c, e, hsplit, hlevel⟩ :=
        Call.exists_level (Frame.enter s.token) (ss.map Step.token)
      have horderly := (hlevel.orderly tail hsplit hstack (p := .operator) (by rw [ht]; rfl)).1
      have hlen := congrArg List.length hsplit
      rw [List.length_map, List.length_append] at hlen
      simp only [hk]
      rw [hsplit, Call.read_of_lparen hk hlevel]
      exact .call (List.suffix_refl _) hk horderly
        (show i + (1 + taken.length) + rest.length = size by omega)
    · simp only [hk]
      exact .failed _ _

/-- Before its name is closed the reader of a formula meets no call, and behind that it looks for
the one of the formula. -/
theorem outcome_readSetup (h : Cursor.Run k b ss d) (hb : Stacked n b.state b.stack)
    (hs : b.state.isSetup = true) {i size : Nat} (hsize : i + ss.length = size)
    (name : Option Text) :
    Outcome (ss.map Step.token) size (readSetup i name (ss.map Step.token)).procedure := by
  -- on the run of the lexer: its rules say which tokens the reader can meet in the group
  induction h generalizing n i name with
  | nil => exact hsize ▸ .ended
  | @cons b d s ss head tail ih =>
    obtain ⟨r, hr⟩ := Cursor.exists_rule_of_step? head
    have hstack := hr.stacked hb
    rw [List.length_cons] at hsize
    rw [List.map_cons, readSetup]
    rcases hr.setup_cases hb hs with ⟨hk, ht⟩ | ⟨hk, ht⟩ | ⟨hk, ht⟩
    · have hnext (name : Option Text) := (ih hstack ht (i := i + 1) (by omega) name).cons s.token
      rcases hk with hk | hk | hk
      all_goals
        simp only [hk]
        exact hnext _
    · simp only [hk]
      exact (outcome_readProcedure tail hstack ht (i := i + 1) (by omega)).cons s.token
    · simp only [hk]
      exact .failed _ _

end Formula

-- ---------------------------------------------------------------------------
-- The formulas of a record
-- ---------------------------------------------------------------------------

/-- What a formula of a record was read from: the tokens `tokens` from its opener on, of which it
takes as many as the outcome says. -/
structure Formula.Stems (note : Text) (tokens : List Token) (e : Capture Formula)
    (r : Reading (Option Call)) : Prop where
  outcome   : Formula.Outcome tokens tokens.length r
  procedure : e.value.procedure = r.node
  error     : e.error = none → r.error = none
  ends      : r.consumed = tokens.length → e.span.2 = note.byteSize

/-- The end of the last token of a note is the end of the note. -/
theorem span_synthesize_of_suffix (ht : t :: tokens <:+ tokenize k note) (kind : TokenKind)
    (v : Value) :
    (Token.synthesize kind v (t :: tokens)).span.2 = note.byteSize := by
  obtain ⟨before, hbefore⟩ := ht
  have htiles := tiles_tokenize k note
  rw [← hbefore, List.map_append, Piece.tiles_append, List.flatMap_map] at htiles
  have hjoin := htiles.2.join
  have hnote := flatMap_text_tokenize k note
  rw [← hbefore, List.flatMap_append] at hnote
  show (Piece.join ((t :: tokens).map _)).span.2 = _
  rw [List.map_cons, hjoin, Piece.span, Piece.ofText, Place.after_start, ← List.map_cons,
    List.flatMap_map, ← Text.byteSize_append, hnote]

/-- An error token that has ended a construct of a note has a violation. -/
theorem Construct.error_of_violation {a : Construct} {x : Reading Token}
    (ht : t :: tokens <:+ tokenize k note) (hk : t.kind = a.opener)
    (hread : a.read? (t :: tokens) = some x) (hx : (Node.mk x.node x.error).violation = none) :
    x.error = none := by
  obtain ⟨taken, rest, y, rfl, hy⟩ := a.exists_reads hk tokens
  obtain rfl : y = x := Option.some_inj.1 (hy.read.symm.trans hread)
  cases herror : y.error with
  | none => rfl
  | some u =>
    obtain ⟨v, front, hparts, -, -⟩ := hy.parts
    have hmem : u ∈ tokenize k note := by
      refine ht.subset ?_
      rw [← List.cons_append, hparts, herror]
      simp
    obtain ⟨w, hw⟩ := (decoded_of_mem_tokenize hmem).exists_violation (hy.error u herror)
    rw [Node.violation, herror, Option.bind_some, hw] at hx
    contradiction

/-- Every formula of a record stems from a run of the lexer that begins at its opener. -/
theorem exists_outcome_of_mem_formula {e : Capture Formula} (he : e ∈ (parse k note).formula) :
    ∃ tokens r, tokens <:+ tokenize k note ∧ Formula.Stems note tokens e r := by
  have hnodes := (dispatches_formula.collects (c := .formula)
    (fun v => by cases v <;> simp [Construct.holds]) k note).nodes
  obtain ⟨l, hl, x, hread, hentry⟩ := exists_mem_of_forall₂ hnodes e he
  obtain ⟨f, hvalue, rfl⟩ := (dispatches_formula _ _).1 hentry
  obtain ⟨htail, hopen⟩ := List.mem_filter.1 hl
  obtain ⟨before, hbefore⟩ := (List.mem_tails _ _).1 htail
  -- the run of the lexer from the opener on
  obtain ⟨d, hrun, -⟩ := Cursor.run_steps k note
  obtain ⟨ss, ts, hss, rfl, rfl⟩ := List.map_eq_append_iff.1 hbefore.symm
  rw [hss] at hrun
  obtain ⟨b, hfront, hrun⟩ := Cursor.run_append_iff.1 hrun
  obtain ⟨n, hb⟩ := hfront.stacked (.empty rfl)
  cases hrun with
  | nil => contradiction
  | @cons _ _ s later head tail =>
    have hk : s.token.kind = Construct.formula.opener := by simpa using hopen
    obtain ⟨r, hr⟩ := Cursor.exists_rule_of_step? head
    have hentry : s.after.state = .formula .opened := hr.state_of_opener (a := .formula) hb hk
    have houtcome := Formula.outcome_readSetup tail (hr.stacked hb) (by rw [hentry]; rfl)
      (Nat.add_comm 1 later.length) none
    rw [List.map_cons] at hread hbefore
    have hsuffix : s.token :: later.map Step.token <:+ tokenize k note := ⟨_, hbefore⟩
    refine ⟨_, (Formula.readSetup 1 none (later.map Step.token)).procedure, hsuffix, ?_⟩
    have hx := Option.some_inj.1 ((Formula.read?_of_opener hk _).symm.trans hread)
    subst hx
    exact {
      outcome   := by
        rw [List.length_cons, List.length_map]
        exact houtcome.cons s.token
      procedure := congrArg Formula.procedure (Value.formula.inj hvalue).symm
      error     := fun hnone => Construct.error_of_violation (a := .formula) hsuffix hk hread hnone
      ends      := fun hlen => by
        have hspan := span_synthesize_of_suffix hsuffix .formula
          (.formula ⟨(Formula.readSetup 1 none (later.map Step.token)).name,
            (Formula.readSetup 1 none (later.map Step.token)).procedure.node⟩)
        rw [← List.take_of_length_le (Nat.le_of_eq hlen.symm)] at hspan
        exact hspan }

-- ---------------------------------------------------------------------------
-- Calls
-- ---------------------------------------------------------------------------

namespace Call

/-- The call `c` is what is read at the parenthesis `t` of a note: it takes the tokens `taken`
behind it, in front of `rest`, and `error` is the token that has ended it, if one has. -/
structure ReadAt (tokens : List Token) (c : Call) (t : Token) (taken rest : List Token)
    (error : Option Token) : Prop where
  stands : t :: (taken ++ rest) <:+ tokens
  opens  : t.kind = .lparen
  read   : Call.read (t :: (taken ++ rest)) = ⟨1 + taken.length, c, error⟩

/-- The form of a call. -/
structure Formed (tokens : List Token) (c : Call) : Prop where
  args     : c.operator = none → c.args = []
  operator : ∀ op ∈ c.operator, op.IsOperator
  /-- With its closing parenthesis a call has no error and has an operator, and what is read of a
  call without one are spaces: an error token comes behind them, or the end of the note. -/
  read     : ∃ t taken rest error, ReadAt tokens c t taken rest error ∧
    (Closes (t :: taken) → c.status = .sound ∧ c.operator ≠ none) ∧
    (c.operator = none → Orderly.Headless taken rest error)

/-- A call has taken its closing parenthesis. -/
def Closed (tokens : List Token) (c : Call) : Prop :=
  ∃ t taken rest error, ReadAt tokens c t taken rest error ∧ Closes (t :: taken)

theorem Orderly.readAt (h : Orderly .operator (Frame.enter t) taken rest c e)
    (hk : t.kind = .lparen) (hstands : t :: (taken ++ rest) <:+ tokens) :
    ReadAt tokens c t taken rest e.error :=
  ⟨hstands, hk, read_of_lparen hk h.level⟩

/-- A call that the lexer has put in order is well formed. -/
theorem Orderly.formed (h : Orderly .operator (Frame.enter t) taken rest c e)
    (hk : t.kind = .lparen) (hstands : t :: (taken ++ rest) <:+ tokens) : c.Formed tokens := by
  have hread := h.readAt hk hstands
  -- with an operator the call has a head, and without one it was never closed
  rcases h.head_cases rfl with ⟨op, hop, hlegal⟩ | ⟨hnone, hargs, error, rfl, hhead⟩
  · refine ⟨fun hnone => ?_, fun x hx => ?_, t, taken, rest, e.error, hread, ?_, fun hnone => ?_⟩
    · rw [hop] at hnone
      contradiction
    · obtain rfl : op = x := Option.some_inj.1 (hop.symm.trans hx)
      exact hlegal
    · intro hcloses
      obtain rfl := (h.level.closes_iff hk).1 hcloses
      exact ⟨h.level.status, by rw [hop]; nofun⟩
    · rw [hop] at hnone
      contradiction
  · refine ⟨fun _ => hargs, fun x hx => ?_, t, taken, rest, error, hread, ?_, fun _ => hhead⟩
    · rw [hnone] at hx
      contradiction
    · intro hcloses
      have hclosed := (h.level.closes_iff hk).1 hcloses
      contradiction

/-- A call that the lexer has put in order and that has ended closed has taken its parenthesis. -/
theorem Orderly.closed (h : Orderly .operator (Frame.enter t) taken rest c .closed)
    (hk : t.kind = .lparen) (hstands : t :: (taken ++ rest) <:+ tokens) : c.Closed tokens :=
  ⟨t, taken, rest, none, h.readAt hk hstands, (h.level.closes_iff hk).2 rfl⟩

end Call

-- ---------------------------------------------------------------------------
-- Records
-- ---------------------------------------------------------------------------

/-- The calls of a record are well formed. -/
structure Record.Formed (note : Text) (tokens : List Token) (r : Record) : Prop where
  /-- Every call, at any depth. -/
  calls  : ∀ e ∈ r.formula, ∀ c ∈ e.value.procedure, c.Everywhere (Call.Formed tokens)
  /-- A formula without an error, behind which the note goes on, has a procedure, and it and all
  calls inside it are closed. -/
  closed : ∀ e ∈ r.formula, e.error = none → e.span.2 < note.byteSize →
    ∃ c, e.value.procedure = some c ∧ c.Everywhere (Call.Closed tokens)

/-- **The calls of every note are well formed**, and only an error or the end of the note leaves a
formula without a procedure or a call without its closing parenthesis. -/
theorem parse_formed (k : Keywords) (note : Text) :
    (parse k note).Formed note (tokenize k note) := by
  refine ⟨fun e he c hc => ?_, fun e he herror hbehind => ?_⟩
  · obtain ⟨tokens, r, hsuffix, houtcome, hprocedure, -, -⟩ := exists_outcome_of_mem_formula he
    rw [hprocedure] at hc
    cases houtcome with
    | ended | failed => contradiction
    | call hstands hk horderly _ =>
      obtain rfl := Option.some_inj.1 hc
      have hstands := hstands.trans hsuffix
      refine .intro (horderly.formed hk hstands) (horderly.everywhere ?_ nofun)
      intro u inner behind d e' hu hinside hd _
      exact hd.formed hu ((hinside.trans (List.suffix_cons _ _)).trans hstands)
  · obtain ⟨tokens, r, hsuffix, houtcome, hprocedure, hnone, hends⟩ :=
      exists_outcome_of_mem_formula he
    have hread := hnone herror
    have hshort : r.consumed ≠ tokens.length := fun hlen => Nat.ne_of_lt hbehind (hends hlen)
    cases houtcome with
    | ended => exact absurd rfl hshort
    | failed => contradiction
    | @call t taken rest c ending i hstands hk horderly hconsumed =>
      refine ⟨c, hprocedure, ?_⟩
      -- a call that is cut without an error has taken all tokens up to the end of the note, but the
      -- note goes on
      have hclosed : ending = .closed := by
        cases ending with
        | closed => rfl
        | cut x =>
          obtain rfl : x = none := hread
          have hrest := horderly.rest_eq_nil
          rw [hrest] at hconsumed
          exact absurd hconsumed hshort
      subst hclosed
      have hstands := hstands.trans hsuffix
      refine .intro (horderly.closed hk hstands) (horderly.everywhere ?_ nofun)
      intro u inner behind d e' hu hinside hd hending
      obtain rfl := hending rfl
      exact hd.closed hu ((hinside.trans (List.suffix_cons _ _)).trans hstands)

/-- Where the note ends inside a nested call, that call may be without an operator. -/
example :
    let calls := (parse Keywords.standard "$$()(+ 1 ( ".toList).formula.flatMap fun e =>
      e.value.procedure.toList.flatMap fun c => c :: c.inner
    calls.map (·.operator) = [some ['+'], none] := by
  decide +kernel

end Jot
