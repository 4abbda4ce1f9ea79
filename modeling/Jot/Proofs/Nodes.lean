import Jot.Record

/-!
# Jot — what a node takes

Each reader of a construct passes its tokens by kind alone, whatever their values.  `Takes` is
the judgement that its loops satisfy, `Construct.Reads` the law of a whole construct, and `Cuts`
relates a token list to its nodes one by one, so that facts about nodes are inductions on it.
All of this holds for every token list, whether or not the lexer can produce it.

* `Construct.exists_reads` — a construct is an opener, tokens of its own and at most one error;
* `cuts_nodes` — the nodes of a token list are cut in this way.
-/

namespace Jot

/-- A total can be taken before or after a map. -/
theorem total_map {α β : Type} (f : β → Nat) (g : α → β) (l : List α) :
    total f (l.map g) = total (fun a => f (g a)) l := by
  induction l with
  | nil => rfl
  | cons a l ih => rw [List.map_cons, total_cons, total_cons, ih]

-- ---------------------------------------------------------------------------
-- Constructs
-- ---------------------------------------------------------------------------

/-- The constructs that are more than one token. -/
inductive Construct where
  | formula
  | link
  | reaction

namespace Construct

/-- The kind of token that opens a construct. -/
def opener : Construct → TokenKind
  | formula => .formulaOpen
  | link => .linkOpen
  | reaction => .reactionOpen

/-- The kind of node that a construct becomes. -/
def nodeKind : Construct → TokenKind
  | formula => .formula
  | link => .link
  | reaction => .reaction

/-- The kinds of token inside a construct, errors apart. -/
def owns : Construct → TokenKind → Bool
  | formula, .lparen | formula, .rparen | formula, .space | formula, .arg
  | formula, .operator => true
  | link, .lparen | link, .rparen | link, .space | link, .href | link, .title
  | link, .imageSource | link, .imageTitle => true
  | reaction, .textBlob | reaction, .reactionClose => true
  | _, _ => false

/-- The kinds of token that can end up in a node of the construct. -/
def takes (c : Construct) (k : TokenKind) : Bool := k == c.opener || c.owns k || k == .error

/-- Whether a value is the value of a node of the construct. -/
def holds : Construct → Value → Bool
  | formula, .formula _ | link, .link _ | reaction, .reaction _ => true
  | _, _ => false

/-- The reader of a construct. -/
def read? : Construct → List Token → Option (Reading Token)
  | formula => Formula.read?
  | link => Link.read?
  | reaction => Reaction.read?

end Construct

-- ---------------------------------------------------------------------------
-- Taking tokens
-- ---------------------------------------------------------------------------

/-- Reading on from `i` tokens to `j`, a loop takes tokens of the kinds `own` from the front of a
list, and perhaps an error token, behind which it takes nothing more; the last list is left. -/
inductive Takes (own : TokenKind → Bool) :
    Nat → List Token → Nat → Option Token → List Token → Prop where
  | stop (i : Nat) (ts : List Token) : Takes own i ts i none ts
  | error {i : Nat} {t : Token} {ts : List Token} (h : t.kind = .error) :
      Takes own i (t :: ts) (i + 1) (some t) ts
  | token {i j : Nat} {t : Token} {ts rest : List Token} {e : Option Token}
      (h : own t.kind = true) (tail : Takes own (i + 1) ts j e rest) :
      Takes own i (t :: ts) j e rest

namespace Takes

variable {own : TokenKind → Bool} {i j l : Nat} {ts mid rest : List Token} {e : Option Token}

/-- A loop that has stopped without an error can be carried on by another one. -/
theorem trans (h : Takes own i ts j none mid) (h' : Takes own j mid l e rest) :
    Takes own i ts l e rest := by
  generalize hn : (none : Option Token) = n at h
  induction h with
  | stop => exact h'
  | error => contradiction
  | token h _ ih => exact .token h (ih h' hn)

/-- It makes no difference from which number on the tokens are counted. -/
theorem shift (h : Takes own i ts j e rest) (n : Nat) :
    Takes own (n + i) ts (n + j) e rest := by
  induction h with
  | stop i ts => exact .stop (n + i) ts
  | error h => exact .error h
  | token h _ ih => exact .token h ih

/-- What is taken stands at the front of the list, the error token last. -/
theorem exists_front (h : Takes own i ts j e rest) :
    ∃ front, ts = front ++ e.toList ++ rest ∧ j = i + (front ++ e.toList).length ∧
      (∀ t ∈ front, own t.kind = true) ∧ ∀ t ∈ e, t.kind = .error := by
  induction h with
  | stop => exact ⟨[], by simp⟩
  | error h => exact ⟨[], by simp [h]⟩
  | @token i j t ts rest e h _ ih =>
    -- this token is the first of those in front
    obtain ⟨front, rfl, rfl, hfront, he⟩ := ih
    refine ⟨t :: front, rfl, ?_, List.forall_mem_cons.2 ⟨h, hfront⟩, he⟩
    simp only [List.cons_append, List.length_cons]
    omega

/-- Tokens that are passed in one go are taken like others, if they are of the right kinds. -/
theorem takeWhile (p : Token → Bool) (hp : ∀ t, p t = true → own t.kind = true)
    (h : Takes own (i + (ts.takeWhile p).length) (ts.drop (ts.takeWhile p).length) j e rest) :
    Takes own i ts j e rest := by
  induction ts generalizing i with
  | nil => exact h
  | cons t ts ih =>
    cases ht : p t with
    | false => simpa [ht] using h
    | true =>
      rw [List.takeWhile_cons_of_pos ht, List.length_cons, List.drop_succ_cons] at h
      exact .token (hp t ht) (ih (by rwa [Nat.add_assoc, Nat.add_comm 1]))

end Takes

-- ---------------------------------------------------------------------------
-- The loops of the readers
-- ---------------------------------------------------------------------------

/-- The loop of calls, whatever calls are open: it has a case for each kind of token. -/
theorem Call.takes_readFrom (i : Nat) (f : Frame) (outer : List Frame) (ts : List Token) :
    ∃ rest, Takes Construct.formula.owns i ts (readFrom i f outer ts).consumed
      (readFrom i f outer ts).error rest := by
  induction ts generalizing i f outer with
  | nil => exact ⟨[], .stop i []⟩
  | cons t ts ih =>
    rw [readFrom]
    split
    case h_1 hk =>
      obtain ⟨rest, h⟩ := ih (i + 1) (Frame.enter t) (f :: outer)
      exact ⟨rest, .token (by rw [hk]; rfl) h⟩
    case h_2 hk =>
      -- the loop is over if no other call is open
      cases outer with
      | nil => exact ⟨ts, .token (by rw [hk]; rfl) (.stop _ _)⟩
      | cons g outer =>
        obtain ⟨rest, h⟩ :=
          ih (i + 1) (g.receive ((f.absorb t.toPiece).finish .sound)) outer
        exact ⟨rest, .token (by rw [hk]; rfl) h⟩
    case h_3 hk =>
      obtain ⟨rest, h⟩ := ih (i + 1) ((f.withOperator t.value).absorb t.toPiece) outer
      exact ⟨rest, .token (by rw [hk]; rfl) h⟩
    case h_4 hk =>
      obtain ⟨rest, h⟩ := ih (i + 1) ((f.withArg (Decode.callArg t.value)).absorb t.toPiece) outer
      exact ⟨rest, .token (by rw [hk]; rfl) h⟩
    case h_5 hk =>
      obtain ⟨rest, h⟩ := ih (i + 1) (f.absorb t.toPiece) outer
      exact ⟨rest, .token (by rw [hk]; rfl) h⟩
    case h_6 hk => exact ⟨ts, .error hk⟩
    case h_7 => exact ⟨t :: ts, .stop _ _⟩

/-- The loop of the name of a formula. -/
theorem Formula.takes_readSetup (i : Nat) (name : Option Text) (ts : List Token) :
    Takes Construct.formula.owns i ts (readSetup i name ts).consumed (readSetup i name ts).error
      (readSetup i name ts).rest := by
  induction ts generalizing i name with
  | nil => exact .stop i []
  | cons t ts ih =>
    rw [readSetup]
    split
    case h_1 hk => exact .token (by rw [hk]; rfl) (ih _ _)
    case h_2 hk => exact .token (by rw [hk]; rfl) (ih _ _)
    case h_3 hk => exact .token (by rw [hk]; rfl) (ih _ _)
    case h_4 hk => exact .token (by rw [hk]; rfl) (.stop _ _)
    case h_5 hk => exact .error hk
    case h_6 => exact .stop _ _

theorem Formula.error_eq_none_of_closed {i : Nat} {name : Option Text} {ts : List Token}
    (h : (readSetup i name ts).closed = true) : (readSetup i name ts).error = none := by
  fun_induction readSetup i name ts <;> simp_all

/-- The loop in front of a call, and then the call itself. -/
theorem Formula.takes_readProcedure (i : Nat) (ts : List Token) :
    ∃ rest, Takes Construct.formula.owns i ts (readProcedure i ts).consumed
      (readProcedure i ts).error rest := by
  induction ts generalizing i with
  | nil => exact ⟨[], .stop i []⟩
  | cons t ts ih =>
    rw [readProcedure]
    split
    case h_1 hk =>
      obtain ⟨rest, h⟩ := ih (i + 1)
      exact ⟨rest, .token (by rw [hk]; rfl) h⟩
    case h_2 hk =>
      -- the call counts its tokens from its own parenthesis on
      obtain ⟨rest, h⟩ := Call.takes_readFrom 1 (Frame.enter t) [] ts
      have hcall : Takes Construct.formula.owns 0 (t :: ts) (Call.read (t :: ts)).consumed
          (Call.read (t :: ts)).error rest := by
        rw [Call.read, if_pos hk]
        exact .token (by rw [hk]; rfl) h
      exact ⟨rest, hcall.shift i⟩
    case h_3 hk => exact ⟨ts, .error hk⟩
    case h_4 => exact ⟨t :: ts, .stop _ _⟩

/-- The loop of either group of a link. -/
theorem Link.takes_readGroup (i : Nat) (l : Link) (ts : List Token) :
    Takes Construct.link.owns i ts (readGroup i l ts).consumed (readGroup i l ts).error
      (readGroup i l ts).rest := by
  induction ts generalizing i l with
  | nil => exact .stop i []
  | cons t ts ih =>
    rw [readGroup]
    split
    case h_1 hk => exact .token (by rw [hk]; rfl) (ih _ _)
    case h_2 hk => exact .token (by rw [hk]; rfl) (ih _ _)
    case h_3 hk => exact .token (by rw [hk]; rfl) (ih _ _)
    case h_4 hk => exact .token (by rw [hk]; rfl) (ih _ _)
    case h_5 hk => exact .token (by rw [hk]; rfl) (ih _ _)
    case h_6 hk => exact .token (by rw [hk]; rfl) (.stop _ _)
    case h_7 hk => exact .error hk
    case h_8 => exact .stop _ _

/-- A group that was closed was not ended by an error. -/
theorem Link.error_eq_none_of_closed_group {i : Nat} {l : Link} {ts : List Token}
    (h : (readGroup i l ts).closed = true) : (readGroup i l ts).error = none := by
  fun_induction readGroup i l ts <;> simp_all

/-- Spaces in front of a group belong to the link. -/
theorem Link.takes_spaces {i j : Nat} {ts rest : List Token} {e : Option Token}
    (h : Takes Construct.link.owns (i + (ts.takeWhile fun t => t.kind = .space).length)
      (ts.drop (ts.takeWhile fun t => t.kind = .space).length) j e rest) :
    Takes Construct.link.owns i ts j e rest :=
  h.takeWhile (fun t => t.kind = .space) fun t ht => by rw [of_decide_eq_true ht]; rfl

/-- Spaces, a parenthesis and the first group. -/
theorem Link.takes_readSetup (i : Nat) (ts : List Token) :
    Takes Construct.link.owns i ts (readSetup i ts).consumed (readSetup i ts).error
      (readSetup i ts).rest := by
  simp only [readSetup]
  split
  case h_1 hdrop => exact takes_spaces (hdrop ▸ .stop _ _)
  case h_2 t rest hdrop =>
    split
    case h_1 hk =>
      exact takes_spaces (hdrop ▸ .token (by rw [hk]; rfl) (takes_readGroup _ _ rest))
    case h_2 hk => exact takes_spaces (hdrop ▸ .error hk)
    case h_3 => exact .stop _ _

/-- A first group that was closed was not ended by an error. -/
theorem Link.error_eq_none_of_closed_setup {i : Nat} {ts : List Token}
    (h : (readSetup i ts).closed = true) : (readSetup i ts).error = none := by
  simp only [readSetup] at h ⊢
  split at h
  case h_1 => contradiction
  case h_2 =>
    split at h
    case h_1 => exact error_eq_none_of_closed_group h
    case h_2 => contradiction
    case h_3 => contradiction

/-- Behind a first group the second one is taken if it is there, and else nothing, not even the
spaces. -/
theorem Link.takes_readImage {g : Group} (h : g.error = none) :
    Takes Construct.link.owns g.consumed g.rest (readImage g).consumed (readImage g).error
      (readImage g).rest := by
  simp only [readImage]
  split
  case h_1 => exact h ▸ .stop _ _
  case h_2 t rest hdrop =>
    split
    case isTrue hk =>
      exact takes_spaces (hdrop ▸ .token (by rw [hk]; rfl) (takes_readGroup _ _ rest))
    case isFalse => exact h ▸ .stop _ _

/-- The loop of reactions. -/
theorem Reaction.takes_readBody (i : Nat) (body : Text) (ts : List Token) :
    ∃ rest, Takes Construct.reaction.owns i ts (readBody i body ts).consumed
      (readBody i body ts).error rest := by
  induction ts generalizing i body with
  | nil => exact ⟨[], .stop i []⟩
  | cons t ts ih =>
    rw [readBody]
    split
    case h_1 hk =>
      obtain ⟨rest, h⟩ := ih (i + 1) t.text
      exact ⟨rest, .token (by rw [hk]; rfl) h⟩
    case h_2 hk => exact ⟨ts, .token (by rw [hk]; rfl) (.stop _ _)⟩
    case h_3 hk => exact ⟨ts, .error hk⟩
    case h_4 => exact ⟨t :: ts, .stop _ _⟩

-- ---------------------------------------------------------------------------
-- Whole constructs
-- ---------------------------------------------------------------------------

namespace Construct

/-- The law of a construct, whatever stands behind it: the tokens `run` that it takes are its
opener, tokens of its own, and the error token that ended it, if one did; its node is made of
exactly these. -/
structure Reads (c : Construct) (run rest : List Token) (r : Reading Token) : Prop where
  read     : c.read? (run ++ rest) = some r
  parts    : ∃ t front, run = t :: (front ++ r.error.toList) ∧ t.kind = c.opener ∧
    ∀ x ∈ front, c.owns x.kind = true
  error    : ∀ x ∈ r.error, x.kind = .error
  consumed : r.consumed = run.length
  node     : ∃ v, c.holds v = true ∧ r.node = Token.synthesize c.nodeKind v run

/-- A reader that takes its tokens behind the opener keeps the law. -/
theorem reads_ofTokens {c : Construct} {t : Token} {ts rest : List Token} {j : Nat}
    {e : Option Token} {v : Value} (ht : t.kind = c.opener)
    (hread : c.read? (t :: ts) = some (Reading.ofTokens c.nodeKind v (t :: ts) j e))
    (hv : c.holds v = true) (h : Takes c.owns 1 ts j e rest) :
    ∃ taken rest r, ts = taken ++ rest ∧ c.Reads (t :: taken) rest r := by
  obtain ⟨front, rfl, hj, hfront, he⟩ := h.exists_front
  have hlen : j = (t :: (front ++ e.toList)).length := by rw [hj, List.length_cons, Nat.add_comm]
  have htake : (t :: (front ++ e.toList ++ rest)).take j = t :: (front ++ e.toList) := by
    rw [hlen]
    exact List.take_left
  exact ⟨front ++ e.toList, rest, _, rfl, {
    read     := hread
    parts    := ⟨t, front, rfl, ht, hfront⟩
    error    := he
    consumed := hlen
    node     := ⟨v, hv, by rw [Reading.ofTokens, htake]⟩ }⟩

/-- Every opener is read, and what is read keeps the law of the construct. -/
theorem exists_reads (c : Construct) {t : Token} (ht : t.kind = c.opener) (ts : List Token) :
    ∃ taken rest r, ts = taken ++ rest ∧ c.Reads (t :: taken) rest r := by
  cases c with
  | formula =>
    have hread : formula.read? (t :: ts) = Option.map _ (some ts) :=
      congrArg (Option.map _) (if_pos ht)
    have hsetup := Formula.takes_readSetup 1 none ts
    -- only behind a closed group is a call looked for, and then the two loops are one
    by_cases hclosed : (Formula.readSetup 1 none ts).closed = true
    · rw [Formula.error_eq_none_of_closed hclosed] at hsetup
      obtain ⟨rest, hproc⟩ := Formula.takes_readProcedure
        (Formula.readSetup 1 none ts).consumed (Formula.readSetup 1 none ts).rest
      simp only [Option.map_some, hclosed, if_true] at hread
      exact reads_ofTokens ht hread rfl (hsetup.trans hproc)
    · simp only [Option.map_some, hclosed] at hread
      exact reads_ofTokens ht hread rfl hsetup
  | link =>
    have hread : link.read? (t :: ts) = Option.map _ (some ts) :=
      congrArg (Option.map _) (if_pos ht)
    have hsetup := Link.takes_readSetup 1 ts
    by_cases hclosed : (Link.readSetup 1 ts).closed = true
    · -- the same for the second group
      have herror := Link.error_eq_none_of_closed_setup hclosed
      rw [herror] at hsetup
      simp only [Option.map_some, hclosed, if_true] at hread
      exact reads_ofTokens ht hread rfl (hsetup.trans (Link.takes_readImage herror))
    · simp only [Option.map_some, hclosed] at hread
      exact reads_ofTokens ht hread rfl hsetup
  | reaction =>
    have hread : reaction.read? (t :: ts) = _ := if_pos ht
    obtain ⟨rest, hbody⟩ := Reaction.takes_readBody 1 [] ts
    exact reads_ofTokens ht hread rfl hbody

namespace Reads

variable {c : Construct} {run rest : List Token} {r : Reading Token}

/-- A construct takes tokens of its kinds only. -/
theorem takes (h : c.Reads run rest r) : ∀ t ∈ run, c.takes t.kind = true := by
  obtain ⟨t, front, rfl, ht, hfront⟩ := h.parts
  intro x hx
  rcases List.mem_cons.1 hx with rfl | hx
  · simp [Construct.takes, ht]
  · rcases List.mem_append.1 hx with hx | hx
    · simp [Construct.takes, hfront x hx]
    · simp [Construct.takes, h.error x (by simpa using hx)]

theorem kind (h : c.Reads run rest r) : r.node.kind = c.nodeKind := by
  obtain ⟨v, -, hnode⟩ := h.node
  rw [hnode, Token.synthesize]

theorem holds (h : c.Reads run rest r) : c.holds r.node.value = true := by
  obtain ⟨v, hv, hnode⟩ := h.node
  rw [hnode]
  exact hv

/-- The node stands in the place of the opener. -/
theorem place (h : c.Reads run rest r) {t : Token} {ts : List Token} (hrun : run = t :: ts) :
    r.node.toPlace = t.toPlace := by
  obtain ⟨v, -, hnode⟩ := h.node
  rw [hnode, hrun]
  rfl

theorem text (h : c.Reads run rest r) : r.node.text = run.flatMap (·.text) := by
  obtain ⟨v, -, hnode⟩ := h.node
  rw [hnode]
  exact List.flatMap_map ..

theorem lineBreaks (h : c.Reads run rest r) : r.node.lineBreaks = total (·.lineBreaks) run := by
  obtain ⟨v, -, hnode⟩ := h.node
  rw [hnode]
  exact total_map ..

end Reads

end Construct

-- ---------------------------------------------------------------------------
-- Token lists and their nodes
-- ---------------------------------------------------------------------------

/-- How a token list is cut into nodes: construct by construct, and token by token elsewhere. -/
inductive Cuts : List Token → List Node → Prop where
  | nil : Cuts [] []
  | plain {t : Token} {ts : List Token} {ns : List Node}
      (h : ∀ c : Construct, t.kind ≠ c.opener) (tail : Cuts ts ns) :
      Cuts (t :: ts) (⟨t, none⟩ :: ns)
  | construct {c : Construct} {run rest : List Token} {ns : List Node} {r : Reading Token}
      (h : c.Reads run rest r) (tail : Cuts rest ns) :
      Cuts (run ++ rest) (⟨r.node, r.error⟩ :: ns)

/-- The kind of the first token decides which construct is read. -/
theorem Node.construct?_of_opener {c : Construct} {t : Token} (ht : t.kind = c.opener)
    (ts : List Token) : construct? (t :: ts) = c.read? (t :: ts) := by
  cases c <;> simp only [construct?, ht, Construct.opener, Construct.read?]

/-- Where no opener stands there is no construct. -/
theorem Node.construct?_eq_none {t : Token} (ht : ∀ c : Construct, t.kind ≠ c.opener)
    (ts : List Token) : construct? (t :: ts) = none := by
  have hf := ht .formula
  have hl := ht .link
  have hr := ht .reaction
  unfold construct?
  split <;> simp_all [Construct.opener]

/-- The nodes of a token list are cut from it. -/
theorem cuts_nodes (tokens : List Token) : Cuts tokens (nodes tokens) := by
  match tokens with
  | [] => exact nodes_nil ▸ .nil
  | t :: ts =>
    by_cases hopen : ∃ c : Construct, t.kind = c.opener
    · -- what the construct leaves is shorter, and is cut in turn
      obtain ⟨c, ht⟩ := hopen
      obtain ⟨taken, rest, r, hts, h⟩ := c.exists_reads ht ts
      have hread : Node.construct? (t :: ts) = some r := by
        rw [Node.construct?_of_opener ht, hts]
        exact h.read
      have hrest : ts.drop (r.consumed - 1) = rest := by
        rw [h.consumed, hts, List.length_cons, Nat.add_sub_cancel, List.drop_left]
      rw [nodes_cons_of_construct hread, hrest, hts]
      exact .construct h (cuts_nodes rest)
    · have hplain : ∀ c : Construct, t.kind ≠ c.opener := fun c hc => hopen ⟨c, hc⟩
      rw [nodes_cons_of_plain (Node.construct?_eq_none hplain ts)]
      exact .plain hplain (cuts_nodes ts)
termination_by tokens.length
decreasing_by
  · rw [hts, List.length_cons, List.length_append]; omega
  · simp

end Jot
