import Jot.Proofs.Conservation
import Jot.Proofs.Extent.Formula
import Jot.Proofs.Extent.Link

/-!
# Jot — lexer and readers agree

Each reader takes from its opener on what the lexer has read for the construct.  So a node always
begins where the lexer stands outside of all constructs, and the tokens that only occur inside of
one never become chunks of their own.

* `Construct.consumed_read?` — each reader takes as many tokens as the lexer reads for it;
* `outside_of_endsAt` — behind the end of a construct the lexer is outside of it;
* `Cuts.isChunk` — so every node of a note has a kind of free text, of the header or of a
  construct;
* `parse_agrees` — the agreement, and what it means for chunks.
-/

namespace Jot

variable {k : Keywords} {c d : Cursor} {r : Rule} {s : Step} {ss later : List Step} {n : Nat}

-- ---------------------------------------------------------------------------
-- Whole constructs
-- ---------------------------------------------------------------------------

/-- The state behind the opener of a construct. -/
def Construct.entry : Construct → State
  | formula => .formula .opened
  | link => .link .opened
  | reaction => .reaction

/-- An opener leads into the first state of its construct. -/
theorem Step.By.state_of_opener (h : s.By k c r) (hc : Stacked n c.state c.stack)
    {a : Construct} (hk : s.token.kind = a.opener) : s.after.state = a.entry := by
  have htable := h.relates
    (Q := fun _ kind _ t => (kind = .formulaOpen → t = .formula .opened) ∧
      (kind = .linkOpen → t = .link .opened) ∧ (kind = .reactionOpen → t = .reaction))
    (by decide) hc
  cases a with
  | formula => exact htable.1 hk
  | link => exact htable.2.1 hk
  | reaction => exact htable.2.2 hk

/-- The reader of a construct takes exactly the tokens that the lexer has read for it. -/
theorem Construct.consumed_read? (h : Cursor.Run k c (s :: later) d)
    (hc : Stacked n c.state c.stack) {a : Construct} (hk : s.token.kind = a.opener) :
    (a.read? ((s :: later).map Step.token)).map Reading.consumed =
      some (extent a.endsAt (s :: later)) := by
  obtain ⟨r, hr, tail⟩ := h.uncons
  have hstack := hr.stacked hc
  have hentry := hr.state_of_opener hc hk
  rw [List.map_cons]
  -- each reader walks along the run as far as the lexer stays in its construct
  cases a with
  | formula =>
    have hread : formula.read? (s.token :: later.map Step.token) = Option.map _ (some _) :=
      congrArg (Option.map _) (if_pos hk)
    have hne : s.after.state ≠ .prose := by rw [hentry]; decide
    have hfinish := Formula.finish_readSetup tail hstack (by rw [hentry]; rfl) 1 none
    rw [hread, extent_cons_of_not_stop (decide_eq_false hne), Nat.add_comm, ← hfinish,
      Formula.Setup.finish]
    simp only [Option.map_some, Reading.ofTokens]
    split <;> rfl
  | link =>
    have hread : link.read? (s.token :: later.map Step.token) = Option.map _ (some _) :=
      congrArg (Option.map _) (if_pos hk)
    have hgo : link.endsAt s later = false :=
      endsAt_link_of_endsGroup (by rw [hk]; rfl)
    have hfinish := Link.finish_readSetup tail hstack hentry 1
    rw [hread, extent_cons_of_not_stop hgo, Nat.add_comm, ← hfinish, Link.Group.finish]
    simp only [Option.map_some, Reading.ofTokens]
    split <;> rfl
  | reaction =>
    have hread : reaction.read? (s.token :: later.map Step.token) = _ := if_pos hk
    have hne : s.after.state ≠ .prose := by rw [hentry]; decide
    have hbody := Reaction.consumed_readBody tail hstack hentry 1 []
    rw [hread, extent_cons_of_not_stop (decide_eq_false hne), Nat.add_comm, ← hbody]
    rfl

-- ---------------------------------------------------------------------------
-- Outside of constructs
-- ---------------------------------------------------------------------------

/-- The kinds of token that can stand outside of constructs, and the kinds of constructs. -/
def TokenKind.isChunk : TokenKind → Bool
  | word | space | todo | done | pin | date | folder | tag | mention | cell | event | url | bean
  | error | formula | link | reaction => true
  | _ => false

/-- The states in which no formula, link or reaction has begun. -/
def State.isOutside : State → Bool
  | start | prose | pin | date | folder | folderEnd | marked _ => true
  | _ => false

/-- No construct goes on in a state with the steps `later`: none has begun, or the first group of
a link has ended and no other one follows. -/
def Outside (s : State) (later : List Step) : Prop :=
  s.isOutside = true ∨ (s = .link .image ∧ opensGroup later = false)

theorem opensGroup_cons_of_space (hk : s.token.kind = .space) :
    opensGroup (s :: later) = opensGroup later := by
  simp [opensGroup, Step.isSpace, hk]

theorem opensGroup_cons_of_lparen (hk : s.token.kind = .lparen) :
    opensGroup (s :: later) = true := by
  simp [opensGroup, Step.isSpace, hk]

/-- Whether a token of some kind opens a construct. -/
def TokenKind.isOpener : TokenKind → Bool
  | formulaOpen | linkOpen | reactionOpen => true
  | _ => false

/-- A token that opens no construct is no opener. -/
theorem TokenKind.isOpener_eq_false {kind : TokenKind} (h : ∀ a : Construct, kind ≠ a.opener) :
    kind.isOpener = false := by
  have hf := h .formula
  have hl := h .link
  have hr := h .reaction
  cases kind <;> first | rfl | contradiction

/-- Outside of constructs, the lexer reads what can stand there, and stays outside until it reads
an opener. -/
theorem Step.By.outside (h : s.By k c r) (hc : Stacked n c.state c.stack)
    (hout : Outside c.state (s :: later)) (hplain : ∀ a : Construct, s.token.kind ≠ a.opener) :
    s.token.kind.isChunk = true ∧ Outside s.after.state later := by
  have hopener := TokenKind.isOpener_eq_false hplain
  -- outside at large, or behind the setup of a link that gets no image
  rcases hout with hout | ⟨himage, hgroup⟩
  · have htable := h.relates
      (Q := fun s kind _ t => s.isOutside = true → kind.isOpener = false →
        kind.isChunk = true ∧ t.isOutside = true)
      (by decide) hc hout hopener
    exact ⟨htable.1, .inl htable.2⟩
  · have htable := h.relates
      (Q := fun s kind _ t => s = .link .image → kind.isOpener = false →
        (kind = .space ∧ t = .link .image) ∨ kind = .lparen ∨
        (kind.isChunk = true ∧ t.isOutside = true))
      (by decide) hc himage hopener
    rcases htable with ⟨hk, ht⟩ | hk | ⟨hk, ht⟩
    · rw [opensGroup_cons_of_space hk] at hgroup
      exact ⟨by rw [hk]; rfl, .inr ⟨ht, hgroup⟩⟩
    · rw [opensGroup_cons_of_lparen hk] at hgroup
      contradiction
    · exact ⟨hk, .inl ht⟩

/-- Behind the end of a construct no construct goes on. -/
theorem outside_of_endsAt (h : s.By k c r) (hc : Stacked n c.state c.stack) {a : Construct}
    (hend : a.endsAt s later = true) : Outside s.after.state later := by
  have hprose (ht : s.after.state = .prose) : Outside s.after.state later := .inl (by rw [ht]; rfl)
  cases a with
  | formula => exact hprose (of_decide_eq_true hend)
  | reaction => exact hprose (of_decide_eq_true hend)
  | link =>
    have hends : s.token.kind = .error ∨ s.token.kind = .rparen ∧
        ((s.after.state = .link .image ∧ opensGroup later = false) ∨
          (s.before.state.isImage = true ∧ s.after.state = .prose)) := by
      simpa [Construct.endsAt] using hend
    rcases hends with hk | ⟨-, himage | ⟨-, ht⟩⟩
    · exact .inl (h.relates (Q := fun _ kind _ t => kind = .error → t.isOutside = true)
        (by decide) hc hk)
    · exact .inr himage
    · exact hprose ht

-- ---------------------------------------------------------------------------
-- Nodes and chunks of a note
-- ---------------------------------------------------------------------------

/-- The tokens that a construct takes are those of the steps that the lexer makes for it, and where
steps follow, the lexer is outside of it. -/
theorem Construct.Reads.exists_run {a : Construct} {run rest : List Token} {x : Reading Token}
    (h : a.Reads run rest x) (hrun : Cursor.Run k c ss d)
    (hss : ss.map Step.token = run ++ rest) (hc : Stacked n c.state c.stack) :
    ∃ taken others e m, ss = taken ++ others ∧ taken.map Step.token = run ∧
      others.map Step.token = rest ∧ Cursor.Run k c taken e ∧ Cursor.Run k e others d ∧
      Stacked m e.state e.stack ∧ (others = [] ∨ Outside e.state others) := by
  obtain ⟨t, front, hparts, ht, -⟩ := h.parts
  obtain ⟨s, later, rfl, hs, -⟩ :=
    List.map_eq_cons_iff.1 (hss.trans (by rw [hparts, List.cons_append]))
  have hread := Construct.consumed_read? hrun hc (a := a) (by rw [hs, ht])
  rw [hss, h.read, Option.map_some, Option.some_inj, h.consumed] at hread
  obtain ⟨taken, others, hsplit, hlen, hend⟩ := exists_extent a.endsAt (s :: later)
  rw [hsplit] at hrun hss
  rw [List.map_append] at hss
  obtain ⟨htaken, hothers⟩ := List.append_inj hss (by rw [List.length_map, hlen, hread])
  obtain ⟨e, hfirst, hsecond⟩ := Cursor.run_append_iff.1 hrun
  obtain ⟨m, he⟩ := hfirst.stacked hc
  refine ⟨taken, others, e, m, hsplit, htaken, hothers, hfirst, hsecond, he, ?_⟩
  rcases hend with hnil | ⟨init, x, rfl, hx⟩
  · exact .inl hnil
  · obtain ⟨b, r', hinit, hr', rfl⟩ := hfirst.exists_last
    obtain ⟨l, hb⟩ := hinit.stacked hc
    exact .inr (outside_of_endsAt hr' hb hx)

/-- The nodes of a run that begins outside of constructs can all be chunks. -/
theorem Cuts.isChunk {tokens : List Token} {ns : List Node} (h : Cuts tokens ns)
    (hrun : Cursor.Run k c ss d) (hss : ss.map Step.token = tokens)
    (hc : Stacked n c.state c.stack) (hout : Outside c.state ss) :
    ∀ x ∈ ns, x.token.kind.isChunk = true := by
  induction h generalizing c ss n with
  | nil => simp
  | @plain t ts ns hplain _ ih =>
    obtain ⟨s, later, rfl, rfl, hlater⟩ := List.map_eq_cons_iff.1 hss
    obtain ⟨r, hr, tail⟩ := hrun.uncons
    obtain ⟨hkind, hnext⟩ := hr.outside hc hout hplain
    exact List.forall_mem_cons.2 ⟨hkind, ih tail hlater (hr.stacked hc) hnext⟩
  | @construct a run rest ns r hr htail ih =>
    refine List.forall_mem_cons.2 ⟨?_, ?_⟩
    · rw [hr.kind]
      cases a <;> rfl
    · obtain ⟨taken, others, e, m, -, -, hothers, -, htail', he, hend⟩ := hr.exists_run hrun hss hc
      -- a construct is the last node, or the lexer stands outside behind it
      rcases hend with rfl | hout'
      · have hns : ns = [] := by
          rw [← hothers] at htail
          exact List.length_eq_zero_iff.1 (Nat.le_zero.1 htail.length_le)
        rw [hns]
        simp
      · exact ih htail' hothers he hout'

/-- Merging plain text brings in no new kind of chunk. -/
theorem kind_mem_mergePlainText {captures : List (Capture Value)} {chunk : Capture Value}
    (h : chunk ∈ mergePlainText captures) : ∃ x ∈ captures, x.kind = chunk.kind := by
  rw [mergePlainText_eq, List.mem_filterMap] at h
  obtain ⟨run, hrun, hchunk⟩ := h
  cases run with
  | nil => contradiction
  | cons first others =>
    rw [mergeRun, Option.some_inj] at hchunk
    subst hchunk
    refine ⟨first, ?_, rfl⟩
    rw [← List.flatten_splitBy plainPair captures]
    exact List.mem_flatten.2 ⟨_, hrun, List.mem_cons_self⟩

/-- Every chunk of a note is of a kind that can stand outside of constructs. -/
theorem isChunk_of_mem_chunks (k : Keywords) (note : Text) {chunk : Capture Value}
    (h : chunk ∈ (parse k note).chunks) : chunk.kind.isChunk = true := by
  obtain ⟨x, hx, hkind⟩ := kind_mem_mergePlainText h
  obtain ⟨node, hnode, rfl⟩ := List.mem_map.1 hx
  obtain ⟨d, hrun, -⟩ := Cursor.run_steps k note
  rw [← hkind]
  exact (cuts_nodes (tokenize k note)).isChunk hrun rfl (.empty rfl) (.inl rfl) node hnode

-- ---------------------------------------------------------------------------
-- Agreement
-- ---------------------------------------------------------------------------

/-- The states inside a formula. -/
def State.isFormula : State → Bool
  | formula _ => true
  | _ => false

/-- Lexer and readers agree on the constructs of a note with the steps `ss`. -/
structure Agrees (ss : List Step) (r : Record) : Prop where
  /-- From its opener on, a reader takes exactly what the lexer reads for the construct. -/
  extents  : ∀ s later, s :: later <:+ ss → ∀ a : Construct, s.token.kind = a.opener →
    (a.read? ((s :: later).map Step.token)).map Reading.consumed =
      some (extent a.endsAt (s :: later))
  /-- A formula is left for free text with its procedure or with an error. -/
  formula  : ∀ s ∈ ss, s.before.state.isFormula = true → s.after.state = .prose →
    (s.token.kind = .rparen ∧ s.before.state = .formula .arguments) ∨ s.token.kind = .error
  /-- A reaction is left for free text with its closing quote or with an error. -/
  reaction : ∀ s ∈ ss, s.before.state = .reaction → s.after.state = .prose →
    s.token.kind = .reactionClose ∨ s.token.kind = .error
  /-- The parenthesis that leads behind the first group of a link closes this group. -/
  link     : ∀ s ∈ ss, s.token.kind = .rparen → s.after.state = .link .image →
    s.before.state.isLinkSetup = true
  /-- Tokens that only occur in constructs do not become chunks. -/
  chunks   : ∀ chunk ∈ r.chunks, chunk.kind.isChunk = true

/-- **The lexer and the readers agree on where constructs end**, in every note. -/
theorem parse_agrees (k : Keywords) (note : Text) : Agrees (steps k note) (parse k note) := by
  obtain ⟨d, hrun, -⟩ := Cursor.run_steps k note
  have hsteps : ∀ s ∈ steps k note, ∃ r n, s.By k s.before r ∧
      Stacked n s.before.state s.before.stack := by
    intro s hs
    obtain ⟨c, r, n, hr, hc⟩ := hrun.exists_stacked (.empty rfl) s hs
    exact ⟨r, n, hr.before ▸ hr, hr.before ▸ hc⟩
  refine ⟨?_, ?_, ?_, ?_, fun _ => isChunk_of_mem_chunks k note⟩
  · rintro s later ⟨init, hsplit⟩ a hk
    rw [← hsplit] at hrun
    obtain ⟨b, hinit, hlater⟩ := Cursor.run_append_iff.1 hrun
    obtain ⟨n, hb⟩ := hinit.stacked (.empty rfl)
    exact Construct.consumed_read? hlater hb hk
  · intro s hs hbefore hafter
    obtain ⟨r, n, hr, hc⟩ := hsteps s hs
    exact hr.relates
      (Q := fun s kind _ t => s.isFormula = true → t = .prose →
        (kind = .rparen ∧ s = .formula .arguments) ∨ kind = .error)
      (by decide) hc hbefore hafter
  · intro s hs hbefore hafter
    obtain ⟨r, n, hr, hc⟩ := hsteps s hs
    rcases hr.reaction_cases hc hbefore with ⟨-, ht⟩ | ⟨hk, -⟩
    · rw [ht] at hafter
      contradiction
    · exact hk
  · intro s hs hk hafter
    obtain ⟨r, n, hr, hc⟩ := hsteps s hs
    exact hr.relates
      (Q := fun s kind _ t => kind = .rparen → t = .link .image → s.isLinkSetup = true)
      (by decide) hc hk hafter

/-- A link is over before the link behind it begins, and takes its second group across a space. -/
example :
    let ss := steps Keywords.standard "://(\"a\") ://(\"b\") (\"c\") d".toList
    extent Construct.link.endsAt ss = 4 ∧
      extent Construct.link.endsAt (ss.drop 5) = 8 ∧ ss.length = 15 := by
  decide +kernel

end Jot
