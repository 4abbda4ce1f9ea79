import Mathlib.Data.List.Forall2
import Mathlib.Data.List.Infix
import Jot.Proofs.Header
import Jot.Proofs.Nodes

/-!
# Jot — annotations

What the lexer marks in a note is what the record lists.  Tokens of the lexer hold the value that
decoding their text gives (`Token.Decoded`), and constructs take no annotation, so each field of
the record is read off the token list directly.

* `Cuts.filterMap_eq_capturesOf` — a field for one kind of token;
* `Cuts.collects` — a field for one kind of construct;
* `parse_annotated` — all fields, those that hold one entry included.
-/

namespace Jot

-- ---------------------------------------------------------------------------
-- Values of tokens
-- ---------------------------------------------------------------------------

/-- The kinds of token that the lexer reads, errors apart. -/
def TokenKind.isLexed : TokenKind → Bool
  | error | formula | link | reaction => false
  | _ => true

/-- The kinds of token that are an entry of the record by themselves. -/
def TokenKind.isAnnotation : TokenKind → Bool
  | date | pin | todo | done | folder | tag | mention | event | url | bean | cell => true
  | _ => false

theorem TokenKind.isLexed_of_isAnnotation {kind : TokenKind} (h : kind.isAnnotation = true) :
    kind.isLexed = true := by
  cases kind <;> first | rfl | contradiction

/-- No construct takes an annotation. -/
theorem Construct.takes_eq_false {kind : TokenKind} (h : kind.isAnnotation = true)
    (c : Construct) : c.takes kind = false := by
  cases kind <;> first | contradiction | cases c <;> rfl

/-- The value of the token is what its kind makes of its text. -/
inductive Token.Decoded (t : Token) : Prop where
  | value (hkind : t.kind.isLexed = true) (hvalue : t.value = decode t.kind t.text)
  | violation (v : ViolationKind) (hkind : t.kind = .error)
      (hvalue : t.value = .error (Violation.of v t.text))

/-- Whether an emission names a kind that the lexer reads. -/
def Emit.isLexed : Emit → Bool
  | .token k => k.isLexed
  | _ => true

/-- Rules emit only kinds that the lexer reads; nodes are not among them. -/
theorem State.isLexed_of_mem_rules {s : State} {r : Rule} (hr : r ∈ s.rules) :
    r.emit.isLexed = true :=
  State.forall_rules (P := fun _ r => r.emit.isLexed = true) (by decide) hr

/-- A rule that reads a token decodes its text, or reports it. -/
theorem Step.By.decoded {k : Keywords} {c : Cursor} {r : Rule} {s : Step} (h : s.By k c r) :
    s.token.Decoded := by
  have hlexed := State.isLexed_of_mem_rules h.rule
  have hread := h.read
  have hmem := h.kind_mem
  cases hemit : r.emit with
  | token kind =>
    rw [hemit, Emit.read, Prod.mk.injEq] at hread
    rw [hemit] at hlexed
    refine .value ?_ ?_
    · rw [hread.1]
      exact hlexed
    · rw [hread.1]
      exact hread.2
  | keyword =>
    -- words and keywords alike are kept as they are written
    rw [hemit, Emit.read, Prod.mk.injEq] at hread
    rw [hemit, Emit.kinds] at hmem
    have hkind : s.token.kind = .word ∨ s.token.kind = .todo ∨ s.token.kind = .done := by
      simpa using hmem
    rcases hkind with hk | hk | hk <;> exact .value (by rw [hk]; rfl) (by rw [hk]; exact hread.2)
  | error v =>
    rw [hemit, Emit.read, Prod.mk.injEq] at hread
    exact .violation v hread.1 hread.2

theorem decoded_of_mem_tokenize {k : Keywords} {note : Text} {t : Token}
    (ht : t ∈ tokenize k note) : t.Decoded := by
  obtain ⟨s, c, r, hr, rfl⟩ := exists_rule_of_mem_tokenize ht
  exact hr.decoded

-- ---------------------------------------------------------------------------
-- Fields for one kind of token
-- ---------------------------------------------------------------------------

variable {α : Type}

/-- The entries for all tokens of one kind, in order: what `read` finds in the text of each, where
the token stands, and no error. -/
def capturesOf (kind : TokenKind) (read : Text → α) (tokens : List Token) : List (Capture α) :=
  (tokens.filter fun t => t.kind = kind).map fun t => Capture.ofToken t (read t.text) none

/-- A token of the kind is an entry in front of the others. -/
theorem capturesOf_cons_of_eq {kind : TokenKind} (read : Text → α) {t : Token} (h : t.kind = kind)
    (ts : List Token) :
    capturesOf kind read (t :: ts) =
      Capture.ofToken t (read t.text) none :: capturesOf kind read ts := by
  simp [capturesOf, h]

theorem capturesOf_cons_of_ne {kind : TokenKind} (read : Text → α) {t : Token} (h : t.kind ≠ kind)
    (ts : List Token) : capturesOf kind read (t :: ts) = capturesOf kind read ts := by
  simp [capturesOf, h]

/-- Tokens of other kinds can be left out in front. -/
theorem filter_kind_append_of_ne {kind : TokenKind} {run : List Token}
    (h : ∀ t ∈ run, t.kind ≠ kind) (ts : List Token) :
    ((run ++ ts).filter fun t => t.kind = kind) = ts.filter fun t => t.kind = kind := by
  have hrun : (run.filter fun t => t.kind = kind) = [] :=
    List.filter_eq_nil_iff.2 fun t ht => by simpa using h t ht
  rw [List.filter_append, hrun, List.nil_append]

/-- Tokens of other kinds make no entries. -/
theorem capturesOf_append_of_ne {kind : TokenKind} (read : Text → α) {run : List Token}
    (h : ∀ t ∈ run, t.kind ≠ kind) (ts : List Token) :
    capturesOf kind read (run ++ ts) = capturesOf kind read ts := by
  rw [capturesOf, filter_kind_append_of_ne h, capturesOf]

/-- A field of the record lists the tokens of one kind, and no construct. -/
structure Lists (entry : Node → Option (Capture α)) (kind : TokenKind) (read : Text → α) :
    Prop where
  same    : ∀ t : Token, t.Decoded → t.kind = kind →
    entry ⟨t, none⟩ = some (Capture.ofToken t (read t.text) none)
  other   : ∀ t : Token, t.Decoded → t.kind ≠ kind → entry ⟨t, none⟩ = none
  node    : ∀ (c : Construct) (n : Node), c.holds n.token.value = true → entry n = none
  outside : kind.isAnnotation = true

/-- A field that lists the tokens of one kind lists all of them, in order. -/
theorem Cuts.filterMap_eq_capturesOf {entry : Node → Option (Capture α)} {kind : TokenKind}
    {read : Text → α} (hlists : Lists entry kind read) {tokens : List Token} {ns : List Node}
    (h : Cuts tokens ns) (hd : ∀ t ∈ tokens, t.Decoded) :
    ns.filterMap entry = capturesOf kind read tokens := by
  induction h with
  | nil => rfl
  | @plain t ts ns _ _ ih =>
    obtain ⟨ht, hts⟩ := List.forall_mem_cons.1 hd
    by_cases hkind : t.kind = kind
    · rw [List.filterMap_cons, hlists.same t ht hkind, capturesOf_cons_of_eq read hkind, ih hts]
    · rw [List.filterMap_cons, hlists.other t ht hkind, capturesOf_cons_of_ne read hkind, ih hts]
  | @construct c run rest ns r hr _ ih =>
    -- a construct takes no annotation, so nothing of the kind is lost in it
    have hrun : ∀ t ∈ run, t.kind ≠ kind := by
      rintro t ht rfl
      have htakes := hr.takes t ht
      rw [Construct.takes_eq_false hlists.outside] at htakes
      contradiction
    rw [List.filterMap_cons, hlists.node c _ hr.holds, capturesOf_append_of_ne read hrun,
      ih fun t ht => hd t (List.mem_append_right run ht)]

/-- If it is no error, a token has the value that its kind makes of its text. -/
theorem Token.Decoded.value_of_isLexed {t : Token} (h : t.Decoded)
    (hlexed : t.kind.isLexed = true) : t.value = decode t.kind t.text := by
  cases h with
  | value _ hvalue => exact hvalue
  | violation v hk _ =>
    rw [hk] at hlexed
    contradiction

/-- A field that goes by the kind of a text lists the tokens of this kind. -/
theorem lists_textOf {kind : TokenKind} {read : Text → Text}
    (hdecode : ∀ t, decode kind t = .text (read t)) (hkind : kind.isAnnotation = true) :
    Lists (Node.textOf kind) kind read where
  same t ht hk := by
    have hvalue : t.value = .text (read t.text) := by
      rw [ht.value_of_isLexed (TokenKind.isLexed_of_isAnnotation (hk ▸ hkind)), hk, hdecode]
    simp only [Node.textOf, hvalue, hk, if_true]
    rfl
  other t _ hk := by
    unfold Node.textOf
    split
    · exact if_neg hk
    · rfl
  -- the value of a construct is no text
  node c n hc := by
    unfold Node.textOf
    split
    · next h =>
      rw [h] at hc
      cases c <;> contradiction
    · rfl
  outside := hkind

/-- A field that goes by the value alone has an entry for exactly the values that `mk` makes. -/
def Dispatches (entry : Node → Option (Capture α)) (mk : α → Value) : Prop :=
  ∀ n e, entry n = some e ↔ ∃ x, n.token.value = mk x ∧ n.capture x = e

/-- The entry is the capture of what the value is made from. -/
theorem Dispatches.eq_some {entry : Node → Option (Capture α)} {mk : α → Value}
    (h : Dispatches entry mk) {n : Node} {x : α} (hx : n.token.value = mk x) :
    entry n = some (n.capture x) :=
  (h n _).2 ⟨x, hx, rfl⟩

/-- A node with another value has no entry. -/
theorem Dispatches.eq_none {entry : Node → Option (Capture α)} {mk : α → Value}
    (h : Dispatches entry mk) {n : Node} (hn : ∀ x, n.token.value ≠ mk x) : entry n = none := by
  refine Option.eq_none_iff_forall_ne_some.2 fun e he => ?_
  obtain ⟨x, hx, -⟩ := (h n e).1 he
  exact hn x hx

/-- The kind of token that alone has such a value, for values that a field goes by. -/
def Value.kind? : Value → Option TokenKind
  | date _ => some .date
  | bean _ => some .bean
  | cell _ => some .cell
  | event _ => some .event
  | _ => none

theorem kind_eq_of_decode {kind kind' : TokenKind} {t : Text}
    (h : (decode kind t).kind? = some kind') : kind = kind' := by
  cases kind <;> first | contradiction | exact Option.some.inj h

theorem Construct.kind?_eq_none_of_holds {c : Construct} {v : Value} (h : c.holds v = true) :
    v.kind? = none := by
  cases v <;> first | rfl | cases c <;> contradiction

/-- A field that goes by the value lists the tokens of the kind that has such values. -/
theorem Dispatches.lists {entry : Node → Option (Capture α)} {mk : α → Value}
    (h : Dispatches entry mk) {kind : TokenKind} {read : Text → α}
    (hdecode : ∀ t, decode kind t = mk (read t)) (hmk : ∀ x, (mk x).kind? = some kind)
    (hkind : kind.isAnnotation = true) : Lists entry kind read where
  same t ht hk := by
    refine h.eq_some (n := ⟨t, none⟩) (x := read t.text) ?_
    show t.value = mk (read t.text)
    rw [ht.value_of_isLexed (TokenKind.isLexed_of_isAnnotation (hk ▸ hkind)), hk, hdecode]
  other t ht hk := by
    refine h.eq_none fun x hx => ?_
    have hx : t.value.kind? = some kind := (congrArg Value.kind? hx).trans (hmk x)
    cases ht with
    | value _ hvalue =>
      rw [hvalue] at hx
      exact hk (kind_eq_of_decode hx)
    | violation v _ hvalue =>
      rw [hvalue] at hx
      contradiction
  node c n hc := by
    refine h.eq_none fun x hx => ?_
    have hx := (congrArg Value.kind? hx).trans (hmk x)
    rw [Construct.kind?_eq_none_of_holds hc] at hx
    contradiction
  outside := hkind

-- ---------------------------------------------------------------------------
-- Fields for one kind of construct
-- ---------------------------------------------------------------------------

/-- The parts of a token list that begin with a token of some kind, longest first. -/
def openings (kind : TokenKind) (tokens : List Token) : List (List Token) :=
  tokens.tails.filter fun l => l.head?.any fun t => t.kind = kind

theorem openings_cons_of_eq {kind : TokenKind} {t : Token} (h : t.kind = kind) (ts : List Token) :
    openings kind (t :: ts) = (t :: ts) :: openings kind ts := by
  simp [openings, h]

/-- Tokens that are no openers begin no part. -/
theorem openings_append_of_ne {kind : TokenKind} {run : List Token}
    (h : ∀ t ∈ run, t.kind ≠ kind) (ts : List Token) :
    openings kind (run ++ ts) = openings kind ts := by
  induction run with
  | nil => rfl
  | cons t run ih =>
    obtain ⟨ht, hrun⟩ := List.forall_mem_cons.1 h
    rw [← ih hrun]
    simp [openings, ht]

/-- The entries of a construct: one for each of its openers, in order, where the opener stands,
and made from what the reader makes of the tokens from the opener on. -/
structure Collects (c : Construct) (entry : Node → Option (Capture α)) (tokens : List Token)
    (entries : List (Capture α)) : Prop where
  places : entries.map (·.toPlace) =
    (tokens.filter fun t => t.kind = c.opener).map (·.toPlace)
  nodes  : List.Forall₂ (fun l e => ∃ r, c.read? l = some r ∧ entry ⟨r.node, r.error⟩ = some e)
    (openings c.opener tokens) entries

namespace Collects

variable {c : Construct} {entry : Node → Option (Capture α)} {ts : List Token}
  {entries : List (Capture α)}

/-- Tokens that are no openers can be put in front. -/
theorem append_of_ne (h : Collects c entry ts entries) {run : List Token}
    (hrun : ∀ t ∈ run, t.kind ≠ c.opener) : Collects c entry (run ++ ts) entries where
  places := by rw [filter_kind_append_of_ne hrun, h.places]
  nodes := by
    rw [openings_append_of_ne hrun]
    exact h.nodes

/-- An opener that is read can be put in front, with its entry. -/
theorem cons_of_eq (h : Collects c entry ts entries) {t : Token} (ht : t.kind = c.opener)
    {r : Reading Token} {e : Capture α} (hread : c.read? (t :: ts) = some r)
    (he : entry ⟨r.node, r.error⟩ = some e) (hplace : e.toPlace = t.toPlace) :
    Collects c entry (t :: ts) (e :: entries) where
  places := by
    rw [List.map_cons, h.places, hplace, List.filter_cons_of_pos (by simpa using ht),
      List.map_cons]
  nodes := by
    rw [openings_cons_of_eq ht]
    exact .cons ⟨r, hread, he⟩ h.nodes

end Collects

theorem Construct.opener_injective : Function.Injective opener := by
  intro c d h
  cases c <;> cases d <;> first | rfl | contradiction

theorem Construct.eq_of_holds {c d : Construct} {v : Value} (hc : c.holds v = true)
    (hd : d.holds v = true) : c = d := by
  cases v <;> cases c <;> first | contradiction | (cases d <;> first | rfl | contradiction)

/-- No token inside a construct opens one. -/
theorem Construct.ne_opener_of_owns {c : Construct} {kind : TokenKind} (h : c.owns kind = true)
    (d : Construct) : kind ≠ d.opener := by
  rintro rfl
  cases c <;> cases d <;> contradiction

/-- No token of the lexer has the value of a construct. -/
theorem Token.Decoded.holds_eq_false {t : Token} (h : t.Decoded) (c : Construct) :
    c.holds t.value = false := by
  cases h with
  | value hkind hvalue =>
    rw [hvalue]
    cases c <;> cases t.kind <;> rfl
  | violation v _ hvalue =>
    rw [hvalue]
    cases c <;> rfl

/-- A field that goes by the values of a construct has an entry for every opener, and no other. -/
theorem Cuts.collects {c : Construct} {entry : Node → Option (Capture α)} {mk : α → Value}
    (hentry : Dispatches entry mk) (hmk : ∀ v, c.holds v = true ↔ ∃ x, v = mk x)
    {tokens : List Token} {ns : List Node} (h : Cuts tokens ns) (hd : ∀ t ∈ tokens, t.Decoded) :
    Collects c entry tokens (ns.filterMap entry) := by
  induction h with
  | nil => exact ⟨rfl, .nil⟩
  | @plain t ts ns hplain _ ih =>
    obtain ⟨ht, hts⟩ := List.forall_mem_cons.1 hd
    have hrun : ∀ x ∈ [t], x.kind ≠ c.opener := by simpa using hplain c
    -- a token by itself is no node of the construct
    have hnone : entry ⟨t, none⟩ = none := by
      refine hentry.eq_none fun x hx => ?_
      have := (hmk t.value).2 ⟨x, hx⟩
      rw [ht.holds_eq_false c] at this
      contradiction
    rw [List.filterMap_cons, hnone]
    exact (ih hts).append_of_ne hrun
  | @construct d run rest ns r hr _ ih =>
    have hrest := ih fun t ht => hd t (List.mem_append_right run ht)
    obtain ⟨t, front, hparts, ht, hfront⟩ := hr.parts
    have hinside : ∀ x ∈ front ++ r.error.toList, x.kind ≠ c.opener := by
      intro x hx
      rcases List.mem_append.1 hx with hx | hx
      · exact Construct.ne_opener_of_owns (hfront x hx) c
      · rw [hr.error x (by simpa using hx)]
        cases c <;> decide
    -- a construct makes an entry if it is of the right sort, and inside it nothing is opened
    by_cases hcd : d = c
    · subst hcd
      obtain ⟨x, hx⟩ := (hmk r.node.value).1 hr.holds
      have hv := hentry.eq_some (n := ⟨r.node, r.error⟩) hx
      have hread := hr.read
      rw [hparts, List.cons_append] at hread
      rw [List.filterMap_cons, hv, hparts, List.cons_append]
      refine (hrest.append_of_ne hinside).cons_of_eq ht hread hv ?_
      rw [← hr.place hparts]
      rfl
    · have hnone : entry ⟨r.node, r.error⟩ = none := by
        refine hentry.eq_none fun x hx => ?_
        exact hcd (Construct.eq_of_holds hr.holds ((hmk r.node.value).2 ⟨x, hx⟩))
      have hrun : ∀ x ∈ run, x.kind ≠ c.opener := by
        rw [hparts]
        refine List.forall_mem_cons.2 ⟨?_, hinside⟩
        intro hc
        exact hcd (Construct.opener_injective (ht.symm.trans hc))
      rw [List.filterMap_cons, hnone]
      exact hrest.append_of_ne hrun

-- ---------------------------------------------------------------------------
-- The record of a note
-- ---------------------------------------------------------------------------

theorem dispatches_date : Dispatches Node.date? .date := by
  intro n e
  unfold Node.date?
  split <;> simp_all

theorem dispatches_bean : Dispatches Node.bean? .bean := by
  intro n e
  unfold Node.bean?
  split <;> simp_all

theorem dispatches_cell : Dispatches Node.cell? .cell := by
  intro n e
  unfold Node.cell?
  split <;> simp_all

theorem dispatches_event : Dispatches Node.event? .event := by
  intro n e
  unfold Node.event?
  split <;> simp_all

theorem dispatches_link : Dispatches Node.link? .link := by
  intro n e
  unfold Node.link?
  split <;> simp_all

theorem dispatches_formula : Dispatches Node.formula? .formula := by
  intro n e
  unfold Node.formula?
  split <;> simp_all

theorem dispatches_reaction : Dispatches Node.reaction? .reaction := by
  intro n e
  unfold Node.reaction?
  split <;> simp_all

/-- A list of one entry at most is its last entry. -/
theorem toList_getLast?_of_length_le_one {l : List α} (h : l.length ≤ 1) :
    l.getLast?.toList = l := by
  match l, h with
  | [], _ => rfl
  | [_], _ => rfl

namespace Lists

variable {entry : Node → Option (Capture α)} {kind : TokenKind} {read : Text → α}

/-- The nodes of a note have the entries for all its tokens of a kind. -/
theorem filterMap_nodes (h : Lists entry kind read) (k : Keywords) (note : Text) :
    (nodes (tokenize k note)).filterMap entry = capturesOf kind read (tokenize k note) :=
  (cuts_nodes _).filterMap_eq_capturesOf h fun _ ht => decoded_of_mem_tokenize ht

/-- Keeping the last entry loses none of a kind that occurs once. -/
theorem toList_getLast? (h : Lists entry kind read) (k : Keywords) (note : Text) {m : Nat}
    (hm : kind.lastRank? = some m) :
    ((nodes (tokenize k note)).filterMap entry).getLast?.toList =
      capturesOf kind read (tokenize k note) := by
  rw [h.filterMap_nodes]
  apply toList_getLast?_of_length_le_one
  rw [capturesOf, List.length_map]
  exact tokenize_once k note hm

end Lists

/-- The nodes of a note have an entry for every opener of a construct. -/
theorem Dispatches.collects {c : Construct} {entry : Node → Option (Capture α)} {mk : α → Value}
    (h : Dispatches entry mk) (hmk : ∀ v, c.holds v = true ↔ ∃ x, v = mk x) (k : Keywords)
    (note : Text) :
    Collects c entry (tokenize k note) ((nodes (tokenize k note)).filterMap entry) :=
  (cuts_nodes _).collects h hmk fun _ ht => decoded_of_mem_tokenize ht

/-- What a record says is what is marked in the tokens: nothing is lost, repeated, put in another
order or overwritten. -/
structure Annotated (tokens : List Token) (r : Record) : Prop where
  /-- The header has at most one entry of each kind, folders apart. -/
  date     : r.date.toList = capturesOf .date DateValue.read tokens
  pin      : r.pin.toList = capturesOf .pin Decode.pin tokens
  todo     : r.todo.toList = capturesOf .todo id tokens
  done     : r.done.toList = capturesOf .done id tokens
  folder   : r.folder = capturesOf .folder Decode.folder tokens
  /-- Markers may be repeated. -/
  tag      : r.tag = capturesOf .tag Decode.markedLabel tokens
  mention  : r.mention = capturesOf .mention Decode.markedLabel tokens
  event    : r.event = capturesOf .event Event.read tokens
  url      : r.url = capturesOf .url id tokens
  bean     : r.bean = capturesOf .bean Bean.read tokens
  cell     : r.cell = capturesOf .cell Cell.read tokens
  /-- A construct has an entry for each opener, and only one reaction is opened. -/
  reaction : Collects .reaction Node.reaction? tokens r.reaction.toList
  link     : Collects .link Node.link? tokens r.link
  formula  : Collects .formula Node.formula? tokens r.formula

/-- The record of a note lists what the lexer has marked. -/
theorem parse_annotated (k : Keywords) (note : Text) :
    Annotated (tokenize k note) (parse k note) := by
  have text {kind : TokenKind} {read : Text → Text}
      (hdecode : ∀ t, decode kind t = .text (read t)) (hkind : kind.isAnnotation = true) :
      (nodes (tokenize k note)).filterMap (Node.textOf kind) =
        capturesOf kind read (tokenize k note) :=
    (lists_textOf hdecode hkind).filterMap_nodes k note
  -- the fields for constructs
  have hreaction := dispatches_reaction.collects (c := .reaction)
    (fun v => by cases v <;> simp [Construct.holds]) k note
  have hlink := dispatches_link.collects (c := .link)
    (fun v => by cases v <;> simp [Construct.holds]) k note
  have hformula := dispatches_formula.collects (c := .formula)
    (fun v => by cases v <;> simp [Construct.holds]) k note
  refine {
    date     := (dispatches_date.lists (fun _ => rfl) (fun _ => rfl) rfl).toList_getLast? k note rfl
    pin      := (lists_textOf (fun _ => rfl) rfl).toList_getLast? k note rfl
    todo     := (lists_textOf (fun _ => rfl) rfl).toList_getLast? k note rfl
    done     := (lists_textOf (fun _ => rfl) rfl).toList_getLast? k note rfl
    folder   := text (fun _ => rfl) rfl
    tag      := text (fun _ => rfl) rfl
    mention  := text (fun _ => rfl) rfl
    event    := (dispatches_event.lists (fun _ => rfl) (fun _ => rfl) rfl).filterMap_nodes k note
    url      := text (fun _ => rfl) rfl
    bean     := (dispatches_bean.lists (fun _ => rfl) (fun _ => rfl) rfl).filterMap_nodes k note
    cell     := (dispatches_cell.lists (fun _ => rfl) (fun _ => rfl) rfl).filterMap_nodes k note
    reaction := ?_
    link     := hlink
    formula  := hformula }
  -- as many entries as openers, so the last one is all there are
  have hlength : ((nodes (tokenize k note)).filterMap Node.reaction?).length ≤ 1 := by
    have hplaces := congrArg List.length hreaction.places
    rw [List.length_map, List.length_map] at hplaces
    rw [hplaces]
    exact tokenize_once k note rfl
  show Collects .reaction Node.reaction? (tokenize k note)
    ((nodes (tokenize k note)).filterMap Node.reaction?).getLast?.toList
  rw [toList_getLast?_of_length_le_one hlength]
  exact hreaction

end Jot
