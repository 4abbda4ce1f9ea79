import Mathlib.Data.List.SplitBy
import Jot.Proofs.Nodes

/-!
# Jot — what a record keeps

A record keeps every character of its tokens once: its text and its chunks are the texts of the
tokens in order, and its body is what is left without the header.  The laws are proved for the
two passes apart, cutting into nodes and merging plain text, and hold for every token list.

* `flatMap_text_nodes`, `total_lineBreaks_nodes`, `body_nodes` — nodes keep their tokens;
* `flatMap_text_mergePlainText`, `isChain_mergePlainText` — merging keeps the nodes and leaves no
  two neighbours unmerged;
* `assemble_conserves` — both together.
-/

namespace Jot

-- ---------------------------------------------------------------------------
-- Cutting
-- ---------------------------------------------------------------------------

/-- No construct takes a token of the header. -/
theorem Construct.isHeader_eq_false_of_takes {c : Construct} {k : TokenKind}
    (h : c.takes k = true) : k.isHeader = false := by
  revert h
  cases c <;> cases k <;> decide

theorem Construct.isHeader_nodeKind (c : Construct) : c.nodeKind.isHeader = false := by
  cases c <;> rfl

/-- Nodes have the text of the tokens they were cut from. -/
theorem Cuts.text {tokens : List Token} {ns : List Node} (h : Cuts tokens ns) :
    ns.flatMap (·.token.text) = tokens.flatMap (·.text) := by
  induction h with
  | nil => rfl
  | plain _ _ ih => rw [List.flatMap_cons, List.flatMap_cons, ih]
  | construct hr _ ih => rw [List.flatMap_cons, List.flatMap_append, ih, hr.text]

/-- The line feeds of the tokens are counted once among the nodes. -/
theorem Cuts.lineBreaks {tokens : List Token} {ns : List Node} (h : Cuts tokens ns) :
    total (·.token.lineBreaks) ns = total (·.lineBreaks) tokens := by
  induction h with
  | nil => rfl
  | plain _ _ ih => rw [total_cons, total_cons, ih]
  | construct hr _ ih => rw [total_cons, total_append, ih, hr.lineBreaks]

/-- Outside the header nodes and tokens have the same text, since constructs take nothing of the
header. -/
theorem Cuts.body {tokens : List Token} {ns : List Node} (h : Cuts tokens ns) :
    (ns.filter (!·.token.kind.isHeader)).flatMap (·.token.text) =
      (tokens.filter (!·.kind.isHeader)).flatMap (·.text) := by
  induction h with
  | nil => rfl
  | @plain t ts ns _ _ ih =>
    cases ht : t.kind.isHeader <;> simp [ht, ih]
  | @construct c run rest ns r hr _ ih =>
    have hnode : (!r.node.kind.isHeader) = true := by
      rw [hr.kind, c.isHeader_nodeKind]
      rfl
    -- the filter removes no token of the run, for the construct takes none of the header
    have hrun : run.filter (!·.kind.isHeader) = run := by
      rw [List.filter_eq_self]
      intro t ht
      rw [Construct.isHeader_eq_false_of_takes (hr.takes t ht)]
      rfl
    rw [List.filter_cons, if_pos hnode, List.filter_append, hrun, List.flatMap_cons,
      List.flatMap_append, ih, hr.text]

/-- There are no more nodes than tokens, since a construct takes at least its opener. -/
theorem Cuts.length_le {tokens : List Token} {ns : List Node} (h : Cuts tokens ns) :
    ns.length ≤ tokens.length := by
  induction h with
  | nil => exact Nat.le_refl _
  | plain _ _ ih => exact Nat.succ_le_succ ih
  | construct hr _ ih =>
    obtain ⟨t, front, rfl, -, -⟩ := hr.parts
    simp only [List.length_cons, List.length_append]
    omega

-- ---------------------------------------------------------------------------
-- Merging
-- ---------------------------------------------------------------------------

/-- Whether two neighbours are both plain text. -/
def plainPair (a b : Capture Value) : Bool := a.kind.isPlainText && b.kind.isPlainText

/-- The chunk of a run. -/
def mergeRun : List (Capture Value) → Option (Capture Value)
  | [] => none
  | first :: others => some (first.merge others)

/-- Plain text is merged run by run, a run being neighbours that are all plain text. -/
theorem mergePlainText_eq (captures : List (Capture Value)) :
    mergePlainText captures = (captures.splitBy plainPair).filterMap mergeRun := rfl

/-- A merged chunk has the texts of its run, one behind the other. -/
theorem Capture.text_merge (first : Capture Value) (others : List (Capture Value)) :
    (first.merge others).text = (first :: others).flatMap (·.text) :=
  List.flatMap_map _ _ (first :: others)

theorem Capture.lineBreaks_merge (first : Capture Value) (others : List (Capture Value)) :
    (first.merge others).lineBreaks = total (·.lineBreaks) (first :: others) :=
  total_map _ _ (first :: others)

/-- Merging each of some runs keeps their text; an empty run has none. -/
theorem text_filterMap_mergeRun (runs : List (List (Capture Value))) :
    (runs.filterMap mergeRun).flatMap (·.text) = runs.flatten.flatMap (·.text) := by
  induction runs with
  | nil => rfl
  | cons run runs ih =>
    cases run with
    | nil => exact ih
    | cons first others =>
      show (first.merge others :: runs.filterMap mergeRun).flatMap (·.text) = _
      rw [List.flatMap_cons, ih, first.text_merge, List.flatten_cons, List.flatMap_append]

/-- Merging each of some runs keeps the number of line feeds. -/
theorem lineBreaks_filterMap_mergeRun (runs : List (List (Capture Value))) :
    total (·.lineBreaks) (runs.filterMap mergeRun) = total (·.lineBreaks) runs.flatten := by
  induction runs with
  | nil => rfl
  | cons run runs ih =>
    cases run with
    | nil => exact ih
    | cons first others =>
      show total (·.lineBreaks) (first.merge others :: runs.filterMap mergeRun) = _
      rw [total_cons, ih, first.lineBreaks_merge, List.flatten_cons, total_append]

theorem text_mergePlainText (captures : List (Capture Value)) :
    (mergePlainText captures).flatMap (·.text) = captures.flatMap (·.text) := by
  rw [mergePlainText_eq, text_filterMap_mergeRun, List.flatten_splitBy]

theorem lineBreaks_mergePlainText (captures : List (Capture Value)) :
    total (·.lineBreaks) (mergePlainText captures) = total (·.lineBreaks) captures := by
  rw [mergePlainText_eq, lineBreaks_filterMap_mergeRun, List.flatten_splitBy]

/-- The last chunk of a run is plain text exactly when the first one is. -/
theorem isPlainText_getLast {first : Capture Value} {others : List (Capture Value)}
    (h : (first :: others).IsChain fun a b => plainPair a b = true) :
    ((first :: others).getLast (List.cons_ne_nil _ _)).kind.isPlainText =
      first.kind.isPlainText := by
  induction others generalizing first with
  | nil => rfl
  | cons second others ih =>
    obtain ⟨hpair, htail⟩ := List.isChain_cons_cons.1 h
    have hplain := Bool.and_eq_true_iff.1 hpair
    rw [List.getLast_cons_cons, ih htail, hplain.1, hplain.2]

/-- Where two runs are divided, so are the chunks that they are merged into. -/
theorem isChain_filterMap_mergeRun {runs : List (List (Capture Value))} (hne : [] ∉ runs)
    (hruns : ∀ run ∈ runs, run.IsChain fun a b => plainPair a b = true)
    (hborders : runs.IsChain fun a b => ∃ ha hb, plainPair (a.getLast ha) (b.head hb) = false) :
    (runs.filterMap mergeRun).IsChain fun a b => plainPair a b = false := by
  induction runs with
  | nil => exact .nil
  | cons run runs ih =>
    have htail := ih (fun h => hne (List.mem_cons_of_mem run h))
      (fun r hr => hruns r (List.mem_cons_of_mem run hr)) hborders.tail
    -- a border has two runs, so the induction looks at the run and the one behind it
    match run, runs with
    | [], _ => exact absurd List.mem_cons_self hne
    | _, [] :: _ => exact absurd (List.mem_cons_of_mem _ List.mem_cons_self) hne
    | first :: others, [] => exact .singleton _
    | first :: others, (next :: more) :: runs =>
      obtain ⟨⟨ha, hb, hborder⟩, -⟩ := List.isChain_cons_cons.1 hborders
      -- the border lies between the last chunk of the run and the next run; kinds carry it over
      -- to the first chunk, whose kind the merged chunk has
      have hlast := isPlainText_getLast (hruns _ List.mem_cons_self)
      refine List.isChain_cons_cons.2 ⟨?_, htail⟩
      rwa [plainPair, hlast] at hborder

/-- No two neighbouring chunks are both plain text. -/
theorem isChain_mergePlainText (captures : List (Capture Value)) :
    (mergePlainText captures).IsChain fun a b => plainPair a b = false := by
  rw [mergePlainText_eq]
  exact isChain_filterMap_mergeRun (List.nil_notMem_splitBy _ _)
    (fun _ h => List.isChain_of_mem_splitBy h) (List.isChain_getLast_head_splitBy _ _)

-- ---------------------------------------------------------------------------
-- Records
-- ---------------------------------------------------------------------------

/-- **A record neither loses nor repeats text.**  For every token list, with any kinds and any
values: the text of the record and the texts of its chunks are the texts of the tokens, the line
feeds add up, the body is what stands outside the header, trimmed, and plain text is merged as
far as it goes.  Each node takes at least one token. -/
theorem assemble_conserves (tokens : List Token) :
    (Record.assemble tokens).text = tokens.flatMap (·.text) ∧
    (Record.assemble tokens).chunks.flatMap (·.text) = tokens.flatMap (·.text) ∧
    total (·.lineBreaks) (Record.assemble tokens).chunks = total (·.lineBreaks) tokens ∧
    (Record.assemble tokens).body =
      Text.trim ((tokens.filter (!·.kind.isHeader)).flatMap (·.text)) ∧
    ((Record.assemble tokens).chunks.IsChain fun a b =>
      ¬(a.kind.isPlainText = true ∧ b.kind.isPlainText = true)) ∧
    (nodes tokens).length ≤ tokens.length := by
  have hcuts := cuts_nodes tokens
  refine ⟨hcuts.text, ?_, ?_, congrArg Text.trim hcuts.body, ?_, hcuts.length_le⟩
  · rw [← hcuts.text]
    exact (text_mergePlainText _).trans (List.flatMap_map ..)
  · rw [← hcuts.lineBreaks]
    exact (lineBreaks_mergePlainText _).trans (total_map ..)
  · refine (isChain_mergePlainText _).imp fun a b h hab => ?_
    rw [plainPair, hab.1, hab.2] at h
    contradiction

end Jot
