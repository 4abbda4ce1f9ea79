import Jot.Proofs.Agreement
import Jot.Proofs.Errors
import Jot.Proofs.Truncation

/-!
# Jot — what errors are about

The kind of a violation names a token or a construct.  What it names is in the note: the lexer
reports it in a state that it only enters with such a token, or in the states of such a construct,
and the reader of the construct ends with the error.

* `Rule.violates` — which violations the rules of a state report, and by which pattern;
* `Step.By.kind_of_subject` — the token in front of an error;
* `Cuts.endsWith` — the construct that an error ends;
* `parse_diagnoses` — all of it, for every error token of a note.
-/

namespace Jot

variable {k : Keywords} {c d : Cursor} {r : Rule} {s : Step} {ss later : List Step} {n : Nat}

-- ---------------------------------------------------------------------------
-- Subjects
-- ---------------------------------------------------------------------------

/-- The kind of token, or of node, that a violation is about.  Nothing in a note is at fault for a
date: text that is not a date is a word. -/
def ViolationKind.subject? : ViolationKind → Option TokenKind
  | folder => some .folder
  | tag => some .tag
  | mention => some .mention
  | cell => some .cell
  | event => some .event
  | url => some .url
  | bean => some .bean
  | reaction => some .reaction
  | formulaOpen | formulaSetupName | formulaSetupClose | formulaFuncOpen | formulaFuncOperator
  | formulaFunc | operator | function => some .formula
  | linkOpen | linkSetup | linkSetupTitle | linkSetupClose | linkImageUrl | linkImageTitle
  | linkImageClose => some .link
  | date => none

/-- The kind of token, or of node, that the errors of a state are about. -/
def State.subject? : State → Option TokenKind
  | folder => some .folder
  | marked m => some m.tokenKind
  | reaction => some .reaction
  | formula _ => some .formula
  | link _ => some .link
  | _ => none

/-- The kind of violation that a rule reports. -/
def Emit.violation? : Emit → Option ViolationKind
  | error v => some v
  | _ => none

/-- The violations of a state are about what the state is about.  All but that of a reaction are
reported of a stretch without white space. -/
theorem Rule.violates {state : State} (hr : r ∈ state.rules) {v : ViolationKind}
    (hv : r.emit = .error v) :
    v.subject? = state.subject? ∧ v ≠ .date ∧ (v ≠ .reaction → r.pattern = .symbol) ∧
      (v = .reaction → state = .reaction ∧ r.pattern = .remainder) :=
  State.forall_rules
    (P := fun s r => ∀ v ∈ r.emit.violation?, v.subject? = s.subject? ∧ v ≠ .date ∧
      (v ≠ .reaction → r.pattern = .symbol) ∧
      (v = .reaction → s = .reaction ∧ r.pattern = .remainder))
    (by decide) hr v (by rw [hv]; rfl)

/-- An error token is read by a rule that reports a violation, which the token has. -/
theorem Step.By.exists_violation (h : s.By k c r) (hk : s.token.kind = .error) :
    ∃ v, r.emit = .error v ∧ s.token.violation = some (.of v s.token.text) := by
  have hlexed := State.isLexed_of_mem_rules h.rule
  have hmem := h.kind_mem
  have hread := h.read
  rw [hk] at hmem
  cases hemit : r.emit with
  | token kind =>
    rw [hemit, Emit.kinds, List.mem_singleton] at hmem
    rw [hemit, ← hmem] at hlexed
    contradiction
  | keyword =>
    rw [hemit] at hmem
    contradiction
  | error v =>
    rw [hemit, Emit.read, Prod.mk.injEq] at hread
    exact ⟨v, rfl, by rw [Token.violation, hread.2]⟩

-- ---------------------------------------------------------------------------
-- In front of an error
-- ---------------------------------------------------------------------------

/-- The kind of a node that a construct becomes. -/
def TokenKind.isConstruct : TokenKind → Bool
  | formula | link | reaction => true
  | _ => false

theorem Construct.isConstruct_nodeKind (a : Construct) : a.nodeKind.isConstruct = true := by
  cases a <;> rfl

/-- A state whose errors are about a token is entered with such a token, and the state of a
reaction with its opener or with its body. -/
theorem Step.By.kind_of_subject (h : s.By k c r) (hc : Stacked n c.state c.stack) :
    (∀ kind ∈ s.after.state.subject?, kind.isConstruct = false → s.token.kind = kind) ∧
      (s.after.state = .reaction →
        s.token.kind = .reactionOpen ∨ s.token.kind = .textBlob) :=
  h.relates
    (Q := fun _ kind _ t => (∀ m ∈ t.subject?, m.isConstruct = false → kind = m) ∧
      (t = .reaction → kind = .reactionOpen ∨ kind = .textBlob))
    (by decide) hc

/-- A text of which neither the closing quote nor the body of a reaction can be taken is one
character long. -/
theorem Pattern.length_eq_one_of_missing {t : Text} (ht : t ≠ [])
    (hclose : Pattern.reactionClose.take? t = none) (hblob : Pattern.textBlob.take? t = none) :
    t.length = 1 := by
  rw [take?_eq_none_iff] at hclose hblob
  by_cases hmem : '”' ∈ t
  · obtain ⟨v, w, rfl, hv⟩ := List.eq_append_cons_of_mem hmem
    obtain rfl : v = [] :=
      List.length_eq_zero_iff.1 (hblob _ (Recognizer.quotedBody_append_close hv w))
    exact absurd (hclose 1 rfl) Nat.one_ne_zero
  · have hlen := hblob _ (Recognizer.quotedBody_of_not_mem hmem)
    have hpos := List.length_pos_iff.2 ht
    omega

/-- The error of a reaction is the last character of the note. -/
theorem Cursor.length_rest_of_reaction (h : c.step? k = some s) (hs : c.state = .reaction)
    (hk : s.token.kind = .error) : c.rest.length = 1 ∧ s.after.rest = [] := by
  have hne := rest_ne_nil_of_step? h
  -- an error is read only where both rules in front of it fail
  have hclose : Pattern.reactionClose.take? c.rest = none := by
    rw [Option.eq_none_iff_forall_ne_some]
    intro m hm
    have hrules : c.state.rules = [] ++ ⟨.reactionClose, .token .reactionClose, .next .prose⟩ ::
        [⟨.textBlob, .token .textBlob, .stay⟩, ⟨.remainder, .error .reaction, .next .prose⟩] := by
      rw [hs]
      rfl
    have hby := by_of_rule h hrules (List.forall_mem_nil _) hm
    exact absurd (hk ▸ hby.kind_mem) (by decide)
  have hblob : Pattern.textBlob.take? c.rest = none := by
    rw [Option.eq_none_iff_forall_ne_some]
    intro m hm
    have hrules : c.state.rules = [⟨.reactionClose, .token .reactionClose, .next .prose⟩] ++
        ⟨.textBlob, .token .textBlob, .stay⟩ :: [⟨.remainder, .error .reaction, .next .prose⟩] := by
      rw [hs]
      rfl
    have hby := by_of_rule h hrules (List.forall_mem_singleton.2 hclose) hm
    exact absurd (hk ▸ hby.kind_mem) (by decide)
  have hlen := Pattern.length_eq_one_of_missing hne hclose hblob
  obtain ⟨r, hr⟩ := exists_rule_of_step? h
  have htext := List.length_pos_iff.2 hr.text_ne_nil
  have hsplit := congrArg List.length hr.rest
  rw [List.length_append, hlen] at hsplit
  exact ⟨hlen, List.length_eq_zero_iff.1 (by omega)⟩

-- ---------------------------------------------------------------------------
-- The construct that an error ends
-- ---------------------------------------------------------------------------

/-- The errors of the state are about a construct, unless it is free text, which has none. -/
def Construct.inside (a : Construct) (state : State) : Prop :=
  state.subject? = some a.nodeKind ∨ state = .prose

theorem Construct.inside_entry (a : Construct) : a.inside a.entry := by
  cases a <;> exact .inl rfl

/-- Tokens of a construct keep the lexer in the states of the construct, or lead to free text. -/
theorem Step.By.inside (h : s.By k c r) (hc : Stacked n c.state c.stack) {a : Construct}
    (hs : a.inside c.state) (hk : a.owns s.token.kind = true) : a.inside s.after.state := by
  have htable := h.relates
    (Q := fun s kind _ t => ∀ a ∈ [Construct.formula, .link, .reaction],
      (s.subject? = some a.nodeKind ∨ s = .prose) → a.owns kind = true →
        t.subject? = some a.nodeKind ∨ t = .prose)
    (by decide) hc
  exact htable a (by cases a <;> simp) hs hk

/-- Along the own tokens of a construct the lexer stays in its states. -/
theorem Cursor.Run.inside (h : Run k c ss d) (hc : Stacked n c.state c.stack) {a : Construct}
    (hs : a.inside c.state) (hss : ∀ s ∈ ss, a.owns s.token.kind = true) : a.inside d.state := by
  induction h generalizing n with
  | nil => exact hs
  | cons head _ ih =>
    obtain ⟨r, hr⟩ := exists_rule_of_step? head
    obtain ⟨hk, hss⟩ := List.forall_mem_cons.1 hss
    exact ih (hr.stacked hc) (hr.inside hc hs hk) hss

/-- Outside of constructs no error is about one. -/
theorem Step.By.isConstruct_eq_false (h : s.By k c r) (hout : Outside c.state later)
    {v : ViolationKind} (hv : r.emit = .error v) :
    ∀ kind ∈ v.subject?, kind.isConstruct = false := by
  have htable := State.forall_rules
    (P := fun s r => (s.isOutside = true ∨ s = .link .image) →
      ∀ v ∈ r.emit.violation?, ∀ kind ∈ v.subject?, kind.isConstruct = false)
    (by decide) h.rule
  exact htable (hout.imp_right And.left) v (by rw [hv]; rfl)

section Splits

variable {α : Type} {x : α} {xs ys zs front behind : List α}

/-- An entry of two rows stands in the first or in the second. -/
theorem append_eq_append_cons_cases (h : xs ++ ys = front ++ x :: behind) :
    (∃ mid, xs = front ++ x :: mid ∧ behind = mid ++ ys) ∨
      ∃ mid, front = xs ++ mid ∧ ys = mid ++ x :: behind := by
  rcases List.append_eq_append_iff.1 h with ⟨mid, hfront, hys⟩ | ⟨mid, hxs, hbehind⟩
  · exact .inr ⟨mid, hfront, hys⟩
  · cases mid with
    | nil => exact .inr ⟨[], by simpa using hxs.symm, hbehind.symm⟩
    | cons y mid =>
      obtain ⟨rfl, hmid⟩ := List.cons.inj hbehind
      exact .inl ⟨mid, hxs, hmid⟩

/-- An entry that is not in a row, but in it with at most one more behind, is that one. -/
theorem eq_of_append_toList {o : Option α} (h : xs ++ x :: zs = ys ++ o.toList) (hx : x ∉ ys) :
    xs = ys ∧ o = some x ∧ zs = [] := by
  cases o with
  | none =>
    rw [Option.toList_none, List.append_nil] at h
    exact absurd (h ▸ List.mem_append_right xs List.mem_cons_self) hx
  | some y =>
    rcases List.eq_nil_or_concat' zs with rfl | ⟨zs, z, rfl⟩
    · obtain ⟨rfl, hxy⟩ := List.append_inj' h rfl
      exact ⟨rfl, congrArg some (List.cons.inj hxy).1.symm, rfl⟩
    · have hsplit : (xs ++ x :: zs) ++ [z] = ys ++ [y] := by simpa using h
      have hys := (List.append_inj' hsplit rfl).1
      exact absurd (hys ▸ List.mem_append_right xs List.mem_cons_self) hx

end Splits

/-- The construct `a` ends with the token `t`: from one of the tokens `front` on, its reader takes
all up to `t` and hands on `t`, and what it reads has an entry. -/
def Construct.EndsWith (a : Construct) (entries : List (Capture Value)) (front : List Token)
    (t : Token) (behind : List Token) : Prop :=
  ∃ before taken reading, front = before ++ taken ∧
    a.read? (taken ++ t :: behind) = some reading ∧
    reading.consumed = (taken ++ [t]).length ∧ reading.error = some t ∧
    reading.node.kind = a.nodeKind ∧
    (Node.mk reading.node reading.error).capture reading.node.value ∈ entries

/-- Tokens and an entry in front change nothing about the construct that an error ends. -/
theorem Construct.EndsWith.append {a : Construct} {entries : List (Capture Value)}
    {front behind : List Token} {t : Token} (h : a.EndsWith entries front t behind)
    (run : List Token) (x : Capture Value) : a.EndsWith (x :: entries) (run ++ front) t behind := by
  obtain ⟨before, taken, reading, rfl, hread, hconsumed, herror, hkind, hentry⟩ := h
  exact ⟨run ++ before, taken, reading, (List.append_assoc ..).symm, hread, hconsumed, herror,
    hkind, List.mem_cons_of_mem _ hentry⟩

/-- An error among the tokens of a construct is about the construct, and ends it. -/
theorem Construct.Reads.endsWith {a b : Construct} {run rest : List Token} {x : Reading Token}
    {taken front mid : List Step} {e : Cursor} {v : Violation} (h : b.Reads run rest x)
    (hrun : Cursor.Run k c taken e) (hc : Stacked n c.state c.stack)
    (htaken : taken.map Step.token = run) (hsplit : taken = front ++ s :: mid)
    (hk : s.token.kind = .error) (hv : s.token.violation = some v)
    (ha : v.kind.subject? = some a.nodeKind) :
    mid = [] ∧ a = b ∧ x.error = some s.token ∧ run = front.map Step.token ++ [s.token] := by
  obtain ⟨t, inner, hparts, ht, hinner⟩ := h.parts
  have hne : s.token ∉ t :: inner := by
    intro hmem
    rcases List.mem_cons.1 hmem with rfl | hmem
    · rw [hk] at ht
      cases b <;> contradiction
    · exact ne_error_of_owns (hinner _ hmem) hk
  have htokens : front.map Step.token ++ s.token :: mid.map Step.token =
      (t :: inner) ++ x.error.toList := by
    rw [List.cons_append, ← hparts, ← htaken, hsplit, List.map_append, List.map_cons]
  obtain ⟨hfront, herror, hmid⟩ := eq_of_append_toList htokens hne
  obtain ⟨o, own, rfl, rfl, rfl⟩ := List.map_eq_cons_iff.1 hfront
  rw [hsplit, List.cons_append] at hrun
  obtain ⟨r₀, ho, hrun⟩ := hrun.uncons
  obtain ⟨y, hown, hlast⟩ := Cursor.run_append_iff.1 hrun
  obtain ⟨r, hr, -⟩ := hlast.uncons
  -- from the opener on the lexer is in the states of the construct
  have hentry : b.inside o.after.state := (ho.state_of_opener hc ht).symm ▸ b.inside_entry
  have hinside := hown.inside (ho.stacked hc) hentry fun z hz =>
    hinner _ (List.mem_map.2 ⟨z, hz, rfl⟩)
  obtain ⟨w, hemit, hw⟩ := hr.exists_violation hk
  obtain rfl : v = .of w s.token.text := Option.some.inj (hv.symm.trans hw)
  have hsubject := (Rule.violates hr.rule hemit).1
  -- the errors of a state are about the construct of that state
  have hab : a = b := by
    rcases hinside with hs | hs
    · exact nodeKind_injective (Option.some.inj (ha.symm.trans (hsubject.trans hs)))
    · rw [hs] at hsubject
      exact absurd (hsubject.symm.trans ha) (by rintro ⟨⟩)
  refine ⟨List.map_eq_nil_iff.1 hmid, hab, herror, ?_⟩
  rw [hparts, herror]
  rfl

/-- An error that is about a construct ends one, if the run begins outside of constructs. -/
theorem Cuts.endsWith {tokens : List Token} {ns : List Node} (h : Cuts tokens ns)
    (hrun : Cursor.Run k c ss d) (hss : ss.map Step.token = tokens)
    (hc : Stacked n c.state c.stack) (hout : Outside c.state ss) {front : List Step}
    (hsplit : ss = front ++ s :: later) (hk : s.token.kind = .error) {v : Violation}
    (hv : s.token.violation = some v) {a : Construct} (ha : v.kind.subject? = some a.nodeKind) :
    a.EndsWith (ns.map fun n => n.capture n.token.value) (front.map Step.token) s.token
      (later.map Step.token) := by
  induction h generalizing c ss n front with
  | nil =>
    rw [hsplit, List.map_append] at hss
    simp at hss
  | @plain t ts ns hplain _ ih =>
    obtain ⟨x, others, rfl, rfl, hothers⟩ := List.map_eq_cons_iff.1 hss
    obtain ⟨r, hr, tail⟩ := hrun.uncons
    cases front with
    | nil =>
      obtain ⟨rfl, rfl⟩ := List.cons.inj hsplit
      obtain ⟨w, hemit, hw⟩ := hr.exists_violation hk
      obtain rfl : v = .of w x.token.text := Option.some.inj (hv.symm.trans hw)
      have hnone := hr.isConstruct_eq_false hout hemit _ ha
      rw [a.isConstruct_nodeKind] at hnone
      contradiction
    | cons y front =>
      obtain ⟨rfl, rfl⟩ := List.cons.inj hsplit
      exact (ih tail hothers (hr.stacked hc) (hr.outside hc hout hplain).2 rfl).append
        [x.token] _
  | @construct b run rest ns x hx _ ih =>
    obtain ⟨taken, others, e, m, rfl, htaken, hothers, hrun, htail, he, hend⟩ :=
      hx.exists_run hrun hss hc
    -- the error is among the tokens of this construct, or behind them
    rcases append_eq_append_cons_cases hsplit with ⟨mid, htaken', hlater⟩ | ⟨mid, rfl, rfl⟩
    · obtain ⟨rfl, rfl, herror, hparts⟩ := hx.endsWith hrun hc htaken htaken' hk hv ha
      have hread := hx.read
      rw [hparts, List.append_assoc, List.singleton_append, ← hothers, ← List.nil_append others,
        ← hlater] at hread
      exact ⟨[], front.map Step.token, x, rfl, hread, hparts ▸ hx.consumed, herror, hx.kind,
        List.mem_cons_self⟩
    · rcases hend with hnil | hout'
      · simp at hnil
      · rw [List.map_append, htaken]
        exact (ih htail hothers he hout' rfl).append run _

-- ---------------------------------------------------------------------------
-- Chunks of constructs
-- ---------------------------------------------------------------------------

/-- A run of one is kept as it is. -/
theorem mergeRun_singleton (x : Capture Value) : mergeRun [x] = some x := by
  obtain ⟨⟨place, text, lineBreaks⟩, kind, value, error⟩ := x
  cases value <;> simp [mergeRun, Capture.merge, Piece.join, total]

/-- In a run of two or more, all is plain text. -/
theorem isPlainText_of_isChain {first second : Capture Value} {others : List (Capture Value)}
    (h : (first :: second :: others).IsChain fun a b => plainPair a b = true) :
    ∀ x ∈ first :: second :: others, x.kind.isPlainText = true := by
  obtain ⟨hpair, htail⟩ := List.isChain_cons_cons.1 h
  obtain ⟨hfirst, hsecond⟩ := Bool.and_eq_true_iff.1 hpair
  refine List.forall_mem_cons.2 ⟨hfirst, ?_⟩
  cases others with
  | nil => exact List.forall_mem_singleton.2 hsecond
  | cons third others => exact isPlainText_of_isChain htail

/-- What is no plain text is a chunk by itself. -/
theorem mem_mergePlainText {captures : List (Capture Value)} {x : Capture Value}
    (hx : x ∈ captures) (hplain : x.kind.isPlainText = false) : x ∈ mergePlainText captures := by
  rw [← List.flatten_splitBy plainPair captures] at hx
  obtain ⟨run, hrun, hmem⟩ := List.mem_flatten.1 hx
  have hchain := List.isChain_of_mem_splitBy hrun
  rw [mergePlainText_eq, List.mem_filterMap]
  refine ⟨run, hrun, ?_⟩
  match run, hchain, hmem with
  | [y], _, hmem =>
    obtain rfl := List.mem_singleton.1 hmem
    exact mergeRun_singleton _
  | first :: second :: others, hchain, hmem =>
    have hx := isPlainText_of_isChain hchain x hmem
    rw [hplain] at hx
    contradiction

/-- Merging plain text leaves the chunk of a construct as it is. -/
theorem Construct.EndsWith.merge {a : Construct} {entries : List (Capture Value)}
    {front behind : List Token} {t : Token} (h : a.EndsWith entries front t behind) :
    a.EndsWith (mergePlainText entries) front t behind := by
  obtain ⟨before, taken, reading, hfront, hread, hconsumed, herror, hkind, hentry⟩ := h
  have hplain : reading.node.kind.isPlainText = false := hkind ▸ a.isPlainText_nodeKind
  exact ⟨before, taken, reading, hfront, hread, hconsumed, herror, hkind,
    mem_mergePlainText hentry hplain⟩

-- ---------------------------------------------------------------------------
-- Notes
-- ---------------------------------------------------------------------------

/-- What the violation `v` of an error token `t` says about the tokens before and behind it, and
about the chunks of the note. -/
structure Diagnosis (chunks : List (Capture Value)) (front : List Token) (t : Token)
    (behind : List Token) (v : Violation) : Prop where
  /-- A violation that is about a token directly follows one. -/
  marker    : ∀ kind ∈ v.kind.subject?, kind.isConstruct = false →
    ∃ init x, front = init ++ [x] ∧ x.kind = kind
  /-- A violation that is about a construct ends one. -/
  construct : ∀ a : Construct, v.kind.subject? = some a.nodeKind →
    a.EndsWith chunks front t behind
  /-- A quote that is not closed is reported at the last character of the note. -/
  reaction  : v.kind = .reaction → t.text.length = 1 ∧ behind = [] ∧
    ∃ init x, front = init ++ [x] ∧ (x.kind = .reactionOpen ∨ x.kind = .textBlob)
  /-- Any other error reaches to the next white space. -/
  stretch   : v.kind ≠ .reaction → (∀ c ∈ t.text, isBlank c = false) ∧
    Text.StartsIn isBlank (behind.flatMap (·.text))
  date      : v.kind ≠ .date

/-- Every error token has a violation that says what is wrong around it. -/
def Diagnoses (tokens : List Token) (r : Record) : Prop :=
  ∀ front t behind, tokens = front ++ t :: behind → t.kind = .error →
    ∃ v, t.violation = some v ∧ Diagnosis r.chunks front t behind v

/-- In front of an error there is a token, of the kind that the errors of the state are about if
they are about one. -/
theorem Cursor.Run.exists_front {note : Text} {kind : TokenKind} (h : Run k (start note) ss d)
    (hd : d.state.subject? = some kind) : ∃ init x, ss.map Step.token = init ++ [x] ∧
      (kind.isConstruct = false → x.kind = kind) ∧
      (d.state = .reaction → x.kind = .reactionOpen ∨ x.kind = .textBlob) := by
  rcases List.eq_nil_or_concat' ss with rfl | ⟨init, x, rfl⟩
  · cases h
    contradiction
  · obtain ⟨c, r, hinit, hx, rfl⟩ := h.exists_last
    obtain ⟨n, hc⟩ := hinit.stacked (.empty rfl)
    obtain ⟨hmarker, hreaction⟩ := hx.kind_of_subject hc
    exact ⟨init.map Step.token, x.token, by rw [List.map_append, List.map_singleton],
      hmarker kind hd, hreaction⟩

/-- An error that is reported of a stretch without white space is all of that stretch. -/
theorem Step.By.stretch (h : s.By k c r) (hp : r.pattern = .symbol) :
    (∀ x ∈ s.token.text, isBlank x = false) ∧ Text.StartsIn isBlank s.after.rest := by
  refine ⟨?_, h.startsIn_of_symbol hp⟩
  intro x hx
  rw [h.text_eq_takeWhile (p := fun c => !isBlank c) (by rw [hp]; rfl)] at hx
  simpa using List.all_eq_true.1 List.all_takeWhile x hx

/-- **Errors are about what they name.**  An error token of a note follows a token of the kind that
its violation is about or ends a construct of that kind, and reaches to the next white space, or,
where a reaction is not closed, to the end of the note. -/
theorem parse_diagnoses (k : Keywords) (note : Text) :
    Diagnoses (tokenize k note) (parse k note) := by
  intro front t behind hsplit hk
  obtain ⟨fs, rest, hsteps, rfl, hrest⟩ := List.map_eq_append_iff.1 hsplit
  obtain ⟨s, later, rfl, rfl, rfl⟩ := List.map_eq_cons_iff.1 hrest
  obtain ⟨d, hrun, hd⟩ := Cursor.run_steps k note
  obtain ⟨c, hfirst, hlast⟩ := Cursor.run_append_iff.1 (hsteps ▸ hrun)
  cases hlast with
  | cons head tail =>
    obtain ⟨r, hr⟩ := Cursor.exists_rule_of_step? head
    obtain ⟨v, hemit, hv⟩ := hr.exists_violation hk
    obtain ⟨hsubject, hdate, hsymbol, hremainder⟩ := Rule.violates hr.rule hemit
    refine ⟨_, hv, ?_, ?_, ?_, ?_, hdate⟩
    · intro kind hkind hmarker
      obtain ⟨init, x, hfront, hx, -⟩ := hfirst.exists_front (hsubject.symm.trans hkind)
      exact ⟨init, x, hfront, hx hmarker⟩
    · intro a ha
      exact ((cuts_nodes _).endsWith hrun rfl (.empty rfl) (.inl rfl) hsteps hk hv ha).merge
    · intro hreaction
      obtain ⟨hstate, -⟩ := hremainder hreaction
      obtain ⟨init, x, hfront, -, hx⟩ := hfirst.exists_front (congrArg State.subject? hstate)
      -- the quote leaves one character over, and nothing behind it
      obtain ⟨hlen, hnil⟩ := Cursor.length_rest_of_reaction head hstate hk
      rw [hr.rest, hnil, List.append_nil] at hlen
      refine ⟨hlen, ?_, init, x, hfront, hx hstate⟩
      cases tail with
      | nil => rfl
      | cons head' _ => exact absurd hnil (Cursor.rest_ne_nil_of_step? head')
    · intro hreaction
      obtain ⟨hblank, hbehind⟩ := hr.stretch (hsymbol hreaction)
      rw [tail.rest_eq, hd, List.append_nil] at hbehind
      exact ⟨hblank, (List.flatMap_map ..).symm ▸ hbehind⟩

end Jot
