import Jot.Proofs.Diagnosis
import Jot.Proofs.Interruption.Token
import Jot.Proofs.Ownership

/-!
# Jot — formulas that are cut

A note that is one formula without error may be cut anywhere behind its mark.  What is left is such
a formula again, whatever calls are open at the cut, unless the cut leaves of a name or of an
argument what cannot be read in its place.

* `Unbroken.exists_steps`, `unbroken_of_steady` — a note is one formula when its steps stay in one;
* `Legible` — what can be left of some steps;
* `Cursor.Run.cut` — a run that is cut, by induction on the run;
* `unbroken_append_iff` — which cuts leave a formula without error.
-/

namespace Jot

variable {k : Keywords} {c d : Cursor} {r : Rule} {s : Step} {ss later : List Step} {n : Nat}
  {left right p q note : Text}

-- ---------------------------------------------------------------------------
-- Notes that are one formula
-- ---------------------------------------------------------------------------

/-- The first chunk of the note is a formula without error, and it is all of the note. -/
def Unbroken (k : Keywords) (note : Text) : Prop :=
  ∃ chunk ∈ (parse k note).chunks.head?,
    chunk.kind = .formula ∧ chunk.error = none ∧ chunk.text = note

instance (k : Keywords) (note : Text) : Decidable (Unbroken k note) :=
  inferInstanceAs (Decidable (∃ chunk ∈ (parse k note).chunks.head?,
    chunk.kind = .formula ∧ chunk.error = none ∧ chunk.text = note))

/-- A construct that takes no error token has no error. -/
theorem Construct.Reads.error_eq_none {a : Construct} {run rest : List Token} {x : Reading Token}
    (h : a.Reads run rest x) (hrun : ∀ t ∈ run, t.kind ≠ .error) : x.error = none := by
  obtain ⟨init, hinit, -⟩ := h.exists_init
  rw [Option.eq_none_iff_forall_ne_some]
  intro t ht
  have hmem : t ∈ run := by
    rw [hinit, ht]
    exact List.mem_append_right init List.mem_cons_self
  exact hrun t hmem (h.error t ht)

/-- Tokens that one construct takes are one node. -/
theorem Construct.Reads.nodes_eq {a : Construct} {run : List Token} {x : Reading Token}
    (h : a.Reads run [] x) : nodes run = [⟨x.node, x.error⟩] := by
  obtain ⟨t, front, hrun, ht, -⟩ := h.parts
  have hread := h.read
  have hconsumed := h.consumed
  rw [List.append_nil, hrun, ← Node.construct?_of_opener ht] at hread
  rw [hrun, List.length_cons] at hconsumed
  rw [hrun, nodes_cons_of_construct hread, hconsumed, Nat.add_sub_cancel, List.drop_length,
    nodes_nil]

/-- A chunk that is all of the note is made of all its tokens. -/
theorem blames_of_text {chunk : Capture Value} (hchunk : chunk ∈ (parse k note).chunks.head?)
    (htext : chunk.text = note) : Blames (tokenize k note) (tokenize k note) chunk := by
  obtain ⟨blocks, hflat, hblocks⟩ := (cuts_nodes (tokenize k note)).blames
    (fun t ht => decoded_of_mem_tokenize ht) (List.suffix_refl _)
  obtain ⟨merged, hmerged, hchunks⟩ := blames_mergePlainText hblocks
  obtain ⟨others, hothers⟩ := List.head?_eq_some_iff.1 hchunk
  have hsplit : mergePlainText _ = chunk :: others := hothers
  rw [hsplit] at hchunks
  obtain ⟨block, behind, hblame, -, rfl⟩ := List.forall₂_cons_right_iff.1 hchunks
  rw [List.flatten_cons, hflat] at hmerged
  -- no text is left for the tokens of another chunk
  have hbehind : behind.flatten = [] := by
    have hnote := flatMap_text_tokenize k note
    rw [← hmerged, List.flatMap_append, ← hblame.text, htext, List.append_right_eq_self,
      List.flatMap_eq_nil_iff] at hnote
    refine List.eq_nil_iff_forall_not_mem.2 fun t ht => ?_
    obtain ⟨s, c, r, hr, rfl⟩ :=
      exists_rule_of_mem_tokenize (hmerged ▸ List.mem_append_right block ht)
    exact hr.text_ne_nil (hnote _ ht)
  rw [hbehind, List.append_nil] at hmerged
  rwa [hmerged] at hblame

/-- A note that is one formula is read inside of it. -/
theorem Unbroken.exists_steps (h : Unbroken k note) :
    ∃ o later, steps k note = o :: later ∧ o.token.kind = .formulaOpen ∧ Steady (o :: later) := by
  obtain ⟨chunk, hchunk, hkind, herror, htext⟩ := h
  have hblame := blames_of_text hchunk htext
  obtain ⟨d, hrun, -⟩ := Cursor.run_steps k note
  obtain ⟨rest, x, hsuffix, hread, hconsumed⟩ := hblame.taken .formula hkind
  obtain rfl : rest = [] := by
    have hle := hsuffix.length_le
    rw [List.length_append] at hle
    exact List.length_eq_zero_iff.1 (by omega)
  rw [List.append_nil] at hread
  obtain ⟨t, ts, hts, hopen⟩ := Construct.exists_cons_of_read? hread
  obtain ⟨o, later, hsteps, rfl, -⟩ := List.map_eq_cons_iff.1 hts
  have htokens : (o :: later).map Step.token = tokenize k note := by rw [← hsteps]; rfl
  -- as many tokens are taken as the lexer makes steps inside of the formula; and an error among
  -- them would stand in the chunk
  refine ⟨o, later, hsteps, hopen, ?_, ?_⟩
  · rw [hsteps] at hrun
    have hextent := Construct.consumed_read? hrun (.empty rfl) (a := .formula) hopen
    rw [htokens, hread, Option.map_some, Option.some_inj, hconsumed, ← htokens,
      List.length_map] at hextent
    exact hextent.symm
  · intro s hs hk
    have hmem : s.token ∈ tokenize k note := htokens ▸ List.mem_map_of_mem hs
    have hsome := hblame.error.2 ⟨⟨.formula, hkind⟩, s.token, hmem, hk⟩
    rw [herror] at hsome
    contradiction

theorem mergePlainText_singleton (x : Capture Value) : mergePlainText [x] = [x] := by
  have hruns : [x].splitBy plainPair = [[x]] := rfl
  rw [mergePlainText_eq, hruns, List.filterMap_cons, mergeRun_singleton]
  rfl

/-- A note that is read inside of a formula, without error, is one formula. -/
theorem unbroken_of_steady {o : Step} (hsteps : steps k note = o :: later)
    (ho : o.token.kind = .formulaOpen) (h : Steady (o :: later)) : Unbroken k note := by
  obtain ⟨hextent, hsound⟩ := h
  obtain ⟨d, hrun, -⟩ := Cursor.run_steps k note
  have htokens : tokenize k note = (o :: later).map Step.token := by rw [← hsteps]; rfl
  obtain ⟨taken, rest, x, hlater, hx⟩ :=
    Construct.formula.exists_reads ho (later.map Step.token)
  have hall : (o.token :: taken) ++ rest = tokenize k note := by
    rw [htokens, List.map_cons, hlater, List.cons_append]
  -- the reader takes as many tokens as the lexer makes steps in the formula, and these are all
  obtain rfl : rest = [] := by
    have hread := Construct.consumed_read? (hsteps ▸ hrun) (.empty rfl) (a := .formula) ho
    rw [← htokens, ← hall, hx.read, Option.map_some, hextent, Option.some_inj, hx.consumed] at hread
    have hlen := congrArg List.length (hall.trans htokens)
    rw [List.length_append, hread, List.length_map] at hlen
    exact List.length_eq_zero_iff.1 (by omega)
  rw [List.append_nil] at hall
  rw [hall] at hx
  have herror : x.error = none := hx.error_eq_none fun t ht => by
    obtain ⟨s, hs, rfl⟩ := List.mem_map.1 (htokens ▸ ht)
    exact hsound s hs
  refine ⟨(Node.mk x.node none).capture x.node.value, ?_, hx.kind, rfl, ?_⟩
  · show _ ∈ (mergePlainText ((nodes (tokenize k note)).map _)).head?
    rw [hx.nodes_eq, herror, List.map_singleton, mergePlainText_singleton]
    rfl
  · have htext : x.node.text = note := by rw [hx.text, flatMap_text_tokenize]
    exact htext

/-- A record lists no error exactly if the lexer makes no step that reports one. -/
theorem error_eq_nil_iff :
    (parse k note).error = [] ↔ ∀ s ∈ steps k note, s.token.kind ≠ .error := by
  rw [error_parse]
  constructor
  · intro h s hs hk
    have hmem : s.token ∈ tokenize k note := List.mem_map_of_mem hs
    obtain ⟨v, hv⟩ := (decoded_of_mem_tokenize hmem).exists_violation hk
    have hnone := List.filterMap_eq_nil_iff.1 h _ hmem
    rw [Node.violationOf, hv] at hnone
    contradiction
  · intro h
    refine filterMap_violationOf_eq_nil (fun t ht => decoded_of_mem_tokenize ht) ?_
    intro t ht
    obtain ⟨s, hs, rfl⟩ := List.mem_map.1 ht
    exact h s hs

-- ---------------------------------------------------------------------------
-- Runs that are cut
-- ---------------------------------------------------------------------------

/-- What is left when the text of some steps is cut off, and can be read in its place. -/
inductive Legible : List Step → Text → Prop
  | before (ss : List Step) : Legible ss []
  | within {s : Step} {ss : List Step} {left right : Text} (htext : s.token.text = left ++ right)
      (h : s.Keeps left) : Legible (s :: ss) left
  | behind {s : Step} {ss : List Step} {p : Text} (h : Legible ss p) :
      Legible (s :: ss) (s.token.text ++ p)

/-- What is cut off behind a token concerns the steps behind it. -/
theorem legible_cons_iff (hs : s.token.text ≠ []) :
    Legible (s :: ss) (s.token.text ++ p) ↔ Legible ss p := by
  refine ⟨fun h => ?_, .behind⟩
  generalize htext : s.token.text ++ p = t at h
  cases h with
  | before => exact absurd (List.append_eq_nil_iff.1 htext).1 hs
  | @within _ _ _ right hright _ =>
    rw [← htext, List.append_assoc, List.self_eq_append_right] at hright
    rw [(List.append_eq_nil_iff.1 hright).1]
    exact .before ss
  | behind h =>
    rw [List.append_cancel_left htext]
    exact h

/-- What is left when a token is cut can be read if the front of that token can. -/
theorem legible_within_iff (htext : s.token.text = left ++ right) (hleft : left ≠ [])
    (hright : right ≠ []) : Legible (s :: ss) left ↔ s.Keeps left := by
  refine ⟨fun h => ?_, .within htext⟩
  cases h with
  | before => exact absurd rfl hleft
  | within _ h => exact h
  | @behind _ _ p h =>
    rw [List.append_assoc, List.self_eq_append_right] at htext
    exact absurd (List.append_eq_nil_iff.1 htext).2 hright

/-- A step in a formula stays in it or leaves it for prose. -/
theorem Step.By.isFormula (h : s.By k c r) (hc : Stacked n c.state c.stack)
    (hs : c.state.isFormula = true) :
    s.after.state.isFormula = true ∨ s.after.state = .prose :=
  h.relates
    (Q := fun s _ _ t => s.isFormula = true → t.isFormula = true ∨ t = .prose) (by decide) hc hs

/-- A text in front of another one ends behind the first part of the whole or inside of it. -/
theorem append_eq_append_cases {xs ys : Text} (h : xs ++ ys = p ++ q) :
    (∃ mid, p = xs ++ mid ∧ ys = mid ++ q) ∨ ∃ mid, mid ≠ [] ∧ xs = p ++ mid := by
  rcases List.append_eq_append_iff.1 h with hbehind | ⟨mid, hxs, hq⟩
  · exact .inl hbehind
  · by_cases hmid : mid = []
    · subst hmid
      exact .inl ⟨[], by rw [hxs, List.append_nil, List.append_nil], hq.symm⟩
    · exact .inr ⟨mid, hmid, hxs⟩

/-- Behind a token a text is cut as the rest of it is. -/
theorem Cursor.exists_stepsFrom_take (h : c.step? k = some s) (hk : s.token.kind ≠ .textBlob)
    (p : Text) : ∃ x, x.token = s.token ∧ x.after.state = s.after.state ∧
      (c.take (s.token.text ++ p).length).stepsFrom k [] =
        x :: (s.after.take p.length).stepsFrom k [] := by
  have hle : s.token.text.length ≤ (s.token.text ++ p).length := by
    rw [List.length_append]
    exact Nat.le_add_right _ _
  obtain ⟨x, hstep, htoken, hafter⟩ := exists_step_take h hle fun hblob => absurd hblob hk
  rw [List.length_append, Nat.add_sub_cancel_left] at hafter
  exact ⟨x, htoken, by rw [hafter]; rfl, by rw [stepsFrom_cons hstep, hafter]⟩

/-- A run inside of a formula that is cut off. -/
theorem Cursor.Run.cut (h : Run k c ss d) (hc : Stacked n c.state c.stack)
    (hs : c.state.isFormula = true) (hss : Steady ss)
    (htext : ss.flatMap (·.token.text) = p ++ q) :
    Hinges (Legible ss p) ((c.take p.length).stepsFrom k []) := by
  have hnothing (c : Cursor) : (c.take 0).stepsFrom k [] = [] := stepsFrom_eq_nil rfl
  -- on the run; the cut falls in front of a step, into its token, or behind it
  induction h generalizing n p q with
  | nil c =>
    obtain ⟨rfl, -⟩ := List.append_eq_nil_iff.1 htext.symm
    rw [List.length_nil, hnothing]
    exact .of_steady (.before _) steady_nil
  | @cons c d s ss head tail ih =>
    obtain ⟨r, hr⟩ := exists_rule_of_step? head
    obtain ⟨hk, hnext, hsteady⟩ := steady_cons_iff.1 hss
    by_cases hp : p = []
    · subst hp
      rw [List.length_nil, hnothing]
      exact .of_steady (.before _) steady_nil
    rw [List.flatMap_cons] at htext
    rcases append_eq_append_cases htext with ⟨p', rfl, htext'⟩ | ⟨right, hright, htext'⟩
    · -- the token is read as before, and what is behind it is cut
      have hblob : s.token.kind ≠ .textBlob := hr.relates
        (Q := fun s kind _ _ => s.isFormula = true → kind ≠ .textBlob) (by decide) hc hs
      obtain ⟨x, htoken, hstate, hsteps⟩ := exists_stepsFrom_take head hblob p'
      have hx : x.token.kind ≠ .error := htoken.symm ▸ hk
      rw [hsteps]
      refine Hinges.congr ?_ (legible_cons_iff hr.text_ne_nil).symm
      rcases hnext with rfl | hprose
      · obtain ⟨rfl, -⟩ := List.append_eq_nil_iff.1 htext'.symm
        rw [List.length_nil, hnothing]
        exact .of_steady (.before _) (steady_singleton.2 hx)
      · have hformula := (hr.isFormula hc hs).resolve_right hprose
        exact (ih (hr.stacked hc) hformula hsteady htext').cons hx (.inr (hstate ▸ hprose))
    · exact (step_cut head hs hk htext' hp hright).congr (legible_within_iff htext' hp hright).symm

-- ---------------------------------------------------------------------------
-- Notes that are cut
-- ---------------------------------------------------------------------------

/-- If it depends on `P` whether the steps of a note stay in a formula, then so does whether the
note is one formula, and whether it has an error. -/
theorem Hinges.unbroken_iff {P : Prop} {o : Step} (h : Hinges P (steps k note))
    (hsteps : steps k note = o :: later) (ho : o.token.kind = .formulaOpen) :
    (Unbroken k note ↔ P) ∧ ((parse k note).error = [] ↔ P) := by
  rw [error_eq_nil_iff]
  refine ⟨⟨fun hnote => ?_, fun hP => ?_⟩, fun hnote => ?_, fun hP => (h.steady hP).2⟩
  · obtain ⟨o', later', hsteps', -, hsteady⟩ := hnote.exists_steps
    by_contra hP
    obtain ⟨x, hx, hk⟩ := h.error hP
    exact hsteady.2 x (hsteps' ▸ hx) hk
  · exact unbroken_of_steady hsteps ho (hsteps ▸ h.steady hP)
  · by_contra hP
    obtain ⟨x, hx, hk⟩ := h.error hP
    exact hnote x hx hk

/-- The mark that opens a formula is two characters long. -/
theorem Step.By.length_of_formulaOpen (h : s.By k c r) (hk : s.token.kind = .formulaOpen) :
    s.token.text.length = 2 := by
  have hpattern : r.pattern = .formulaOpen := h.pattern_of_kind (by rw [hk]; rfl)
  have htake := h.take
  rw [hpattern, Pattern.take?_eq_some_iff] at htake
  obtain ⟨rest, -, hlen⟩ := Option.map_eq_some_iff.1 htake.1
  exact hlen.symm

/-- **A formula without error may be cut off where what is left can be read.**  The rest of the
formula plays no part in that, only what is left of the argument in which the cut falls, if it falls
in one. -/
theorem unbroken_append_iff (h : Unbroken k (p ++ q)) (hp : ['$', '$'] <:+: p) :
    (Unbroken k p ↔ Legible (steps k (p ++ q)) p) ∧
      ((parse k p).error = [] ↔ Legible (steps k (p ++ q)) p) := by
  obtain ⟨o, later, hsteps, ho, hsteady⟩ := h.exists_steps
  obtain ⟨-, -, hlater⟩ := steady_cons_iff.1 hsteady
  obtain ⟨d, hrun, hd⟩ := Cursor.run_steps k (p ++ q)
  rw [hsteps] at hrun ⊢
  cases hrun with
  | cons head tail =>
    obtain ⟨r, hr⟩ := Cursor.exists_rule_of_step? head
    have hopened : o.after.state = .formula .opened :=
      hr.state_of_opener (a := .formula) (.empty rfl) ho
    have htext : o.token.text ++ later.flatMap (·.token.text) = p ++ q := by
      have hrest := tail.rest_eq
      rw [hd, List.append_nil] at hrest
      rw [← hrest, ← hr.rest]
      rfl
    obtain ⟨p', rfl, htext'⟩ : ∃ p', p = o.token.text ++ p' ∧
        later.flatMap (·.token.text) = p' ++ q := by
      refine (append_eq_append_cases htext).resolve_right ?_
      rintro ⟨mid, hmid, hcut⟩
      have hlen := congrArg List.length hcut
      rw [hr.length_of_formulaOpen ho, List.length_append] at hlen
      have hle := hp.length_le
      have hpos := List.length_pos_iff.2 hmid
      simp only [List.length_cons, List.length_nil] at hle
      omega
    obtain ⟨x, htoken, hstate, hnote⟩ :=
      Cursor.exists_stepsFrom_take head (by rw [ho]; nofun) p'
    have hstart : (Cursor.start (o.token.text ++ p' ++ q)).take (o.token.text ++ p').length =
        Cursor.start (o.token.text ++ p') := congrArg Cursor.start List.take_left
    rw [hstart] at hnote
    -- the mark itself is never cut, so the cut falls into the run behind it
    have hcut := tail.cut (hr.stacked (.empty rfl)) (by rw [hopened]; rfl) hlater htext'
    have hall := hcut.cons (s := x) (by rw [htoken, ho]; nofun)
      (.inr (by rw [hstate, hopened]; nofun))
    rw [← hnote] at hall
    exact (hall.congr (legible_cons_iff hr.text_ne_nil).symm).unbroken_iff hnote
      (htoken ▸ ho)

/-- Of the number, its front and a label are left. -/
theorem legible_of_cut_exponent :
    let note := "$$()(+ 1.5e3)".toList
    Unbroken Keywords.standard note ∧ ['$', '$'] <:+: "$$()(+ 1.5e".toList ∧
      Legible (steps Keywords.standard note) "$$()(+ 1.5e".toList := by
  intro note
  have hnote : Unbroken Keywords.standard note := by decide +kernel
  have hopen : ['$', '$'] <:+: "$$()(+ 1.5e".toList := ⟨[], "()(+ 1.5e".toList, rfl⟩
  have hcut : Unbroken Keywords.standard "$$()(+ 1.5e".toList := by decide +kernel
  exact ⟨hnote, hopen, (unbroken_append_iff (q := "3)".toList) hnote hopen).1.1 hcut⟩

/-- Without its closing quote, the name of a formula is an error. -/
theorem not_unbroken_of_cut_name :
    Unbroken Keywords.standard "$$(\"a\")".toList ∧
      "$$(\"".toList <+: "$$(\"a\")".toList ∧ ['$', '$'] <:+: "$$(\"".toList ∧
      ¬Unbroken Keywords.standard "$$(\"".toList ∧
      (parse Keywords.standard "$$(\"".toList).error ≠ [] :=
  ⟨by decide +kernel, ⟨"a\")".toList, rfl⟩, ⟨[], "(\"".toList, rfl⟩, by decide +kernel,
    by decide +kernel⟩

end Jot
