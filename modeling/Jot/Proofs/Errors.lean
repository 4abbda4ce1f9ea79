import Jot.Proofs.Annotations
import Jot.Proofs.Conservation

/-!
# Jot — errors

An error token reaches the record on one of two ways: it stands by itself, or a construct takes it
and ends with it.  On either way it is reported once, and only a construct that took one carries
an error.

* `Cuts.violations` — the violations of the nodes are those of the tokens;
* `Cuts.blames`, `blames_mergePlainText` — what an entry has to do with the tokens it was made
  from, for nodes and for chunks;
* `parse_reports` — both together.
-/

namespace Jot

variable {tokens ts block : List Token} {ns : List Node} {t : Token} {chunk : Capture Value}

-- ---------------------------------------------------------------------------
-- Violations of tokens and nodes
-- ---------------------------------------------------------------------------

/-- Only error tokens report anything. -/
theorem Token.Decoded.violation_eq_none (h : t.Decoded) (hk : t.kind ≠ .error) :
    t.violation = none := by
  cases h with
  | value hkind hvalue =>
    rw [Token.violation, hvalue]
    cases t.kind <;> rfl
  | violation v hk' _ => exact absurd hk' hk

/-- Every error token reports something. -/
theorem Token.Decoded.exists_violation (h : t.Decoded) (hk : t.kind = .error) :
    ∃ v, t.violation = some v := by
  cases h with
  | value hkind _ =>
    rw [hk] at hkind
    contradiction
  | violation v _ hvalue => exact ⟨_, by rw [Token.violation, hvalue]⟩

theorem Token.violation_eq_none_of_holds {c : Construct} (h : c.holds t.value = true) :
    t.violation = none := by
  unfold Token.violation
  cases hv : t.value <;> first | rfl | (rw [hv] at h; cases c <;> contradiction)

/-- Tokens without an error among them report nothing. -/
theorem filterMap_violationOf_eq_nil {run : List Token} (hd : ∀ t ∈ run, t.Decoded)
    (h : ∀ t ∈ run, t.kind ≠ .error) : run.filterMap Node.violationOf = [] := by
  rw [List.filterMap_eq_nil_iff]
  intro t ht
  rw [Node.violationOf, (hd t ht).violation_eq_none (h t ht), Option.map_none]

theorem Construct.ne_error_of_owns {c : Construct} {kind : TokenKind} (h : c.owns kind = true) :
    kind ≠ .error := by
  rintro rfl
  cases c <;> contradiction

/-- The error token of a construct is the last token that it takes, and the only one. -/
theorem Construct.Reads.exists_init {c : Construct} {run rest : List Token} {r : Reading Token}
    (h : c.Reads run rest r) :
    ∃ init, run = init ++ r.error.toList ∧ ∀ t ∈ init, t.kind ≠ .error := by
  obtain ⟨t, front, hparts, ht, hfront⟩ := h.parts
  refine ⟨t :: front, by rw [hparts, List.cons_append], ?_⟩
  refine List.forall_mem_cons.2 ⟨?_, fun x hx => Construct.ne_error_of_owns (hfront x hx)⟩
  rw [ht]
  cases c <;> decide

/-- The violations of the nodes are those of the tokens, whichever way they go. -/
theorem Cuts.violations (h : Cuts tokens ns) (hd : ∀ t ∈ tokens, t.Decoded) :
    ns.flatMap Node.violations = tokens.filterMap Node.violationOf := by
  induction h with
  | nil => rfl
  | @plain t ts ns _ _ ih =>
    have hnode : Node.violations ⟨t, none⟩ = (Node.violationOf t).toList := rfl
    rw [List.flatMap_cons, ih fun x hx => hd x (List.mem_cons_of_mem t hx), hnode,
      List.filterMap_cons]
    cases Node.violationOf t <;> rfl
  | @construct c run rest ns r hr _ ih =>
    obtain ⟨init, hinit, hne⟩ := hr.exists_init
    have hrun : ∀ t ∈ run, t.Decoded := fun t ht => hd t (List.mem_append_left rest ht)
    have hfront : init.filterMap Node.violationOf = [] :=
      filterMap_violationOf_eq_nil
        (fun t ht => hrun t (hinit ▸ List.mem_append_left _ ht)) hne
    -- the value of the node is that of a construct, so only its error is reported
    have hown : Node.violationOf r.node = none := by
      rw [Node.violationOf, Token.violation_eq_none_of_holds hr.holds, Option.map_none]
    have hnode : Node.violations ⟨r.node, r.error⟩ = (r.error.bind Node.violationOf).toList := by
      rw [Node.violations, hown, Option.toList_none, List.append_nil]
    rw [List.flatMap_cons, ih fun t ht => hd t (List.mem_append_right run ht), hnode,
      List.filterMap_append, hinit, List.filterMap_append, hfront, List.nil_append]
    cases r.error with
    | none => rfl
    | some e => cases he : Node.violationOf e <;> simp [he]

-- ---------------------------------------------------------------------------
-- Entries and the tokens they were made from
-- ---------------------------------------------------------------------------

/-- What an entry of a record has to do with the tokens `block`, one after the other in `tokens`,
that it was made from: only constructs blame a token, and always the last one they took. -/
structure Blames (tokens block : List Token) (chunk : Capture Value) : Prop where
  text  : chunk.text = block.flatMap (·.text)
  taken : ∀ c : Construct, chunk.kind = c.nodeKind → ∃ rest r, block ++ rest <:+ tokens ∧
    c.read? (block ++ rest) = some r ∧ r.consumed = block.length
  error : chunk.error.isSome = true ↔
    (∃ c : Construct, chunk.kind = c.nodeKind) ∧ ∃ t ∈ block, t.kind = .error
  last  : ∀ v ∈ chunk.error, ∃ init t, block = init ++ [t] ∧ (∀ x ∈ init, x.kind ≠ .error) ∧
    t.kind = .error ∧ t.violation = some v

theorem Construct.nodeKind_injective : Function.Injective nodeKind := by
  intro c d h
  cases c <;> cases d <;> first | rfl | contradiction

/-- A token of the lexer is of no kind of node. -/
theorem Token.Decoded.ne_nodeKind (h : t.Decoded) (c : Construct) : t.kind ≠ c.nodeKind := by
  intro hk
  cases h with
  | value hkind _ =>
    rw [hk] at hkind
    cases c <;> contradiction
  | violation v hkind _ =>
    rw [hk] at hkind
    cases c <;> contradiction

/-- A token by itself blames nothing, even if it is an error. -/
theorem blames_plain (ht : t.Decoded) :
    Blames tokens [t] (Node.capture ⟨t, none⟩ t.value) where
  text := (List.append_nil _).symm
  taken c hc := absurd hc (ht.ne_nodeKind c)
  error := by
    constructor
    · intro h
      contradiction
    · rintro ⟨⟨c, hc⟩, -⟩
      exact absurd hc (ht.ne_nodeKind c)
  last v hv := by contradiction

/-- A construct blames the error token that it took, if it took one. -/
theorem Construct.Reads.blames {c : Construct} {run rest : List Token} {r : Reading Token}
    (h : c.Reads run rest r) (hd : ∀ t ∈ run, t.Decoded) (hsuffix : run ++ rest <:+ tokens) :
    Blames tokens run (Node.capture ⟨r.node, r.error⟩ r.node.value) := by
  obtain ⟨init, hinit, hne⟩ := h.exists_init
  refine ⟨h.text, ?_, ?_, ?_⟩
  · intro d hd'
    have hcd : c = d := Construct.nodeKind_injective (h.kind.symm.trans hd')
    exact ⟨rest, r, hsuffix, hcd ▸ h.read, h.consumed⟩
  · -- the entry has an error if the reading has one, and then it is among the tokens
    cases he : r.error with
    | none =>
      rw [he, Option.toList_none, List.append_nil] at hinit
      constructor
      · intro hsome
        contradiction
      · rintro ⟨-, t, ht, hk⟩
        exact absurd hk (hne t (hinit ▸ ht))
    | some e =>
      have hmem : e ∈ run := by simp [hinit, he]
      obtain ⟨v, hv⟩ := (hd e hmem).exists_violation (h.error e he)
      have herror : (Node.capture ⟨r.node, some e⟩ r.node.value).error = some v := hv
      rw [herror]
      exact ⟨fun _ => ⟨⟨c, h.kind⟩, e, hmem, h.error e he⟩, fun _ => rfl⟩
  · intro v hv
    cases he : r.error with
    | none =>
      rw [he] at hv
      contradiction
    | some e =>
      rw [he] at hinit hv
      exact ⟨init, e, hinit, hne, h.error e he, hv⟩

/-- The nodes of a token list, each with the tokens that it was made from. -/
theorem Cuts.blames (h : Cuts ts ns) (hd : ∀ t ∈ ts, t.Decoded) (hsuffix : ts <:+ tokens) :
    ∃ blocks : List (List Token), blocks.flatten = ts ∧
      List.Forall₂ (Blames tokens) blocks (ns.map fun n => n.capture n.token.value) := by
  -- every list in the induction is what is left of the whole one, which is what a construct was
  -- read from
  induction h with
  | nil => exact ⟨[], rfl, .nil⟩
  | @plain t ts ns _ _ ih =>
    obtain ⟨ht, hts⟩ := List.forall_mem_cons.1 hd
    obtain ⟨blocks, hflat, hblocks⟩ := ih hts ((List.suffix_cons t ts).trans hsuffix)
    exact ⟨[t] :: blocks, by rw [List.flatten_cons, hflat, List.singleton_append],
      .cons (blames_plain ht) hblocks⟩
  | @construct c run rest ns r hr _ ih =>
    obtain ⟨hrun, hrest⟩ := List.forall_mem_append.1 hd
    obtain ⟨blocks, hflat, hblocks⟩ := ih hrest ((List.suffix_append run rest).trans hsuffix)
    exact ⟨run :: blocks, by rw [List.flatten_cons, hflat],
      .cons (hr.blames hrun hsuffix) hblocks⟩

-- ---------------------------------------------------------------------------
-- Merging keeps the blame
-- ---------------------------------------------------------------------------

/-- Entries have the text of all tokens that they were made from. -/
theorem text_of_forall₂_blames {blocks : List (List Token)} {captures : List (Capture Value)}
    (h : List.Forall₂ (Blames tokens) blocks captures) :
    captures.flatMap (·.text) = blocks.flatten.flatMap (·.text) := by
  induction h with
  | nil => rfl
  | cons head _ ih =>
    rw [List.flatMap_cons, List.flatten_cons, List.flatMap_append, ih, head.text]

theorem Construct.isPlainText_nodeKind (c : Construct) : c.nodeKind.isPlainText = false := by
  cases c <;> rfl

/-- A chunk of plain text blames nothing. -/
theorem blames_of_isPlainText {merged : Capture Value} (htext : merged.text = ts.flatMap (·.text))
    (hplain : merged.kind.isPlainText = true) (herror : merged.error = none) :
    Blames tokens ts merged := by
  have hkind : ∀ c : Construct, merged.kind ≠ c.nodeKind := by
    intro c hc
    rw [hc, c.isPlainText_nodeKind] at hplain
    contradiction
  refine ⟨htext, fun c hc => absurd hc (hkind c), ?_, by simp [herror]⟩
  rw [herror]
  exact ⟨fun h => by contradiction, fun ⟨⟨c, hc⟩, _⟩ => absurd hc (hkind c)⟩

/-- An entry of plain text carries no error. -/
theorem Blames.error_eq_none (h : Blames tokens block chunk)
    (hplain : chunk.kind.isPlainText = true) : chunk.error = none := by
  rw [← Option.not_isSome_iff_eq_none, h.error]
  rintro ⟨⟨c, hc⟩, -⟩
  rw [hc, c.isPlainText_nodeKind] at hplain
  contradiction

/-- Merged entries blame what the tokens of all of them do: if any are merged, nothing. -/
theorem blames_merge {blocks : List (List Token)} {first : Capture Value}
    {others : List (Capture Value)} (h : List.Forall₂ (Blames tokens) blocks (first :: others))
    (hchain : (first :: others).IsChain fun a b => plainPair a b = true) :
    Blames tokens blocks.flatten (first.merge others) := by
  have htext : (first.merge others).text = blocks.flatten.flatMap (·.text) := by
    rw [first.text_merge, text_of_forall₂_blames h]
  cases h with
  | @cons block _ blocks _ hfirst htail =>
    by_cases hplain : first.kind.isPlainText = true
    · exact blames_of_isPlainText htext hplain (hfirst.error_eq_none hplain)
    · -- whatever is no plain text stands alone
      cases others with
      | nil =>
        cases htail
        rw [List.flatten_cons, List.flatten_nil, List.append_nil] at htext ⊢
        exact ⟨htext, hfirst.taken, hfirst.error, hfirst.last⟩
      | cons second others =>
        have hpair := (List.isChain_cons_cons.1 hchain).1
        exact absurd (Bool.and_eq_true_iff.1 hpair).1 hplain

/-- Where runs of entries are merged, their tokens are put together. -/
theorem blames_filterMap_mergeRun {runs : List (List (Capture Value))}
    (hruns : ∀ run ∈ runs, run.IsChain fun a b => plainPair a b = true)
    {blocks : List (List Token)} (h : List.Forall₂ (Blames tokens) blocks runs.flatten) :
    ∃ merged : List (List Token), merged.flatten = blocks.flatten ∧
      List.Forall₂ (Blames tokens) merged (runs.filterMap mergeRun) := by
  induction runs generalizing blocks with
  | nil =>
    cases h
    exact ⟨[], rfl, .nil⟩
  | cons run runs ih =>
    obtain ⟨hrun, hothers⟩ := List.forall_mem_cons.1 hruns
    rw [List.flatten_cons] at h
    -- the tokens of this run come first, and those of the other runs are left to the induction
    have htake := List.forall₂_take_append _ _ _ h
    obtain ⟨merged, hflat, hmerged⟩ := ih hothers (List.forall₂_drop_append _ _ _ h)
    cases run with
    | nil => exact ⟨merged, hflat, hmerged⟩
    | cons first others =>
      refine ⟨(blocks.take (first :: others).length).flatten :: merged, ?_,
        .cons (blames_merge htake hrun) hmerged⟩
      rw [List.flatten_cons, hflat, ← List.flatten_append, List.take_append_drop]

/-- The chunks of a record, each with the tokens that it was made from. -/
theorem blames_mergePlainText {blocks : List (List Token)} {captures : List (Capture Value)}
    (h : List.Forall₂ (Blames tokens) blocks captures) :
    ∃ merged : List (List Token), merged.flatten = blocks.flatten ∧
      List.Forall₂ (Blames tokens) merged (mergePlainText captures) := by
  rw [mergePlainText_eq]
  refine blames_filterMap_mergeRun (fun _ hrun => List.isChain_of_mem_splitBy hrun) ?_
  rwa [List.flatten_splitBy]

-- ---------------------------------------------------------------------------
-- The errors of a note
-- ---------------------------------------------------------------------------

/-- The entry that reports an error token. -/
structure Reported (t : Token) (e : Capture Violation) : Prop where
  violation : t.violation = some e.value
  piece     : e.toPiece = t.toPiece
  kind      : e.kind = .error
  error     : e.error = none

/-- The error tokens and what they report correspond, in order. -/
theorem forall₂_reported (hd : ∀ t ∈ tokens, t.Decoded) :
    List.Forall₂ Reported (tokens.filter fun t => t.kind = .error)
      (tokens.filterMap Node.violationOf) := by
  induction tokens with
  | nil => exact .nil
  | cons t ts ih =>
    obtain ⟨ht, hts⟩ := List.forall_mem_cons.1 hd
    by_cases hk : t.kind = .error
    · obtain ⟨v, hv⟩ := ht.exists_violation hk
      have hentry : Node.violationOf t = some (Capture.ofToken t v none) := by
        rw [Node.violationOf, hv, Option.map_some]
      rw [List.filter_cons_of_pos (by simpa using hk), List.filterMap_cons, hentry]
      exact .cons ⟨hv, rfl, hk, rfl⟩ (ih hts)
    · have hentry : Node.violationOf t = none := by
        rw [Node.violationOf, ht.violation_eq_none hk, Option.map_none]
      rw [List.filter_cons_of_neg (by simpa using hk), List.filterMap_cons, hentry]
      exact ih hts

/-- A record reports what its tokens report, since its nodes do. -/
theorem error_parse (k : Keywords) (note : Text) :
    (parse k note).error = (tokenize k note).filterMap Node.violationOf :=
  (cuts_nodes _).violations fun _ ht => decoded_of_mem_tokenize ht

/-- A record reports the error tokens of a note: each has one entry, in the order of the note, and
the chunks that carry an error are the constructs that took one. -/
structure Reports (tokens : List Token) (r : Record) : Prop where
  errors : List.Forall₂ Reported (tokens.filter fun t => t.kind = .error) r.error
  chunks : ∃ blocks : List (List Token), blocks.flatten = tokens ∧
    List.Forall₂ (Blames tokens) blocks r.chunks

/-- **Every error is reported once**, and blamed on the construct that it ended, if any. -/
theorem parse_reports (k : Keywords) (note : Text) :
    Reports (tokenize k note) (parse k note) := by
  have hd : ∀ t ∈ tokenize k note, t.Decoded := fun t ht => decoded_of_mem_tokenize ht
  have hcuts := cuts_nodes (tokenize k note)
  constructor
  case errors =>
    show List.Forall₂ Reported _ ((nodes (tokenize k note)).flatMap Node.violations)
    rw [hcuts.violations hd]
    exact forall₂_reported hd
  case chunks =>
    obtain ⟨blocks, hflat, hblocks⟩ := hcuts.blames hd (List.suffix_refl _)
    obtain ⟨merged, hmerged, hchunks⟩ := blames_mergePlainText hblocks
    exact ⟨merged, hmerged.trans hflat, hchunks⟩

end Jot
