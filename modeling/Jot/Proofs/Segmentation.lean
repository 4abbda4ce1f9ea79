import Jot.Proofs.Header
import Jot.Proofs.Lexeme
import Jot.Proofs.Nodes

/-!
# Jot — keywords and segmentation

Which words are keywords has no influence on where a note is cut into tokens.  A keyword is looked
up in one place only, where the header ends: whatever comes of it, the lexer goes on in free text,
from which no state leads back to one that looks for a keyword.

* `Cursor.step?_of_emit_ne` — a step by any other rule does not depend on the keywords;
* `Cursor.Run.of_headerRank` — nor does a run behind the header;
* `Cursor.Run.exists_oneWordApart` — two runs with different keywords side by side;
* `parse_of_keywords` — the tokens and the records of a note under two choices of keywords.
-/

namespace Jot

-- ---------------------------------------------------------------------------
-- Token lists
-- ---------------------------------------------------------------------------

/-- Two token lists are equal but for the kind of at most one token, which is a word, a task or a
task done in both.  Its value is its text, and no formula, link or reaction begins before it. -/
inductive OneWordApart : List Token → List Token → Prop where
  | same (tokens : List Token) : OneWordApart tokens tokens
  | word {before behind : List Token} {t : Token} {kind : TokenKind}
      (hbefore : ∀ b ∈ before, ∀ c : Construct, b.kind ≠ c.opener)
      (hvalue : t.value = .text t.text)
      (ht : t.kind ∈ [TokenKind.word, .todo, .done])
      (hkind : kind ∈ [TokenKind.word, .todo, .done]) :
      OneWordApart (before ++ t :: behind) (before ++ { t with kind } :: behind)

/-- A token in front that opens no construct keeps two lists one word apart. -/
theorem OneWordApart.cons {t : Token} {ts us : List Token} (h : OneWordApart ts us)
    (ht : ∀ c : Construct, t.kind ≠ c.opener) : OneWordApart (t :: ts) (t :: us) := by
  cases h with
  | same => exact .same _
  | @word before behind w kind hbefore hvalue hw hkind =>
    have hcons := List.forall_mem_cons.2 ⟨ht, hbefore⟩
    exact @OneWordApart.word (t :: before) behind w kind hcons hvalue hw hkind

-- ---------------------------------------------------------------------------
-- Steps
-- ---------------------------------------------------------------------------

/-- A keyword is looked up in the header only, and behind it there is free text. -/
theorem Rule.of_keyword {s : State} {r : Rule} (hr : r ∈ s.rules) (h : r.emit = .keyword) :
    s.headerRank < 5 ∧ r.transition = .next .prose :=
  State.forall_rules
    (P := fun s r => r.emit = .keyword → s.headerRank < 5 ∧ r.transition = .next .prose)
    (by decide) hr h

theorem Emit.read_of_ne {e : Emit} (h : e ≠ .keyword) (k k' : Keywords) (t : Text) :
    e.read k' t = e.read k t := by
  cases e <;> first | rfl | contradiction

namespace Cursor

variable {k k' : Keywords} {c d : Cursor} {s : Step} {ss : List Step} {n : Nat}

/-- A step that looks up no keyword does not depend on the keywords. -/
theorem step?_of_emit_ne (h : (c.state.choose c.rest).emit ≠ .keyword) :
    c.step? k' = c.step? k := by
  simp only [step?, Emit.read_of_ne h k k']

/-- A step that looks up a keyword is the same step but for the kind of its token. -/
theorem step?_of_keyword (k' : Keywords) (h : c.step? k = some s)
    (hkeyword : (c.state.choose c.rest).emit = .keyword) :
    c.step? k' = some { s with
      token := { s.token with kind := (k'.kind? s.token.text).getD .word } } := by
  simp only [step?, hkeyword, Emit.read] at h ⊢
  split at h
  · contradiction
  · next hne =>
    cases h
    exact if_neg hne

/-- Behind the header the keywords do not matter. -/
theorem Run.of_headerRank (h : Run k c ss d) (hc : Stacked n c.state c.stack)
    (hrank : 5 ≤ c.state.headerRank) : Run k' c ss d := by
  induction h generalizing n with
  | nil => exact .nil _
  | @cons c d s ss head tail ih =>
    obtain ⟨r, hr, m, hm, hchoose⟩ := c.state.exists_rule_choose (rest_ne_nil_of_step? head)
    have hby : s.By k c r := by_of_choose head hr hm hchoose
    have hemit : r.emit ≠ .keyword := fun hk => by
      have := (Rule.of_keyword hr hk).1
      omega
    have hstep : c.step? k' = c.step? k := step?_of_emit_ne (by rw [hchoose]; exact hemit)
    exact .cons (hstep.trans head)
      (ih (hby.stacked hc) (Nat.le_trans hrank (hby.headerRank_le hc)))

end Cursor

namespace Step.By

variable {k : Keywords} {c : Cursor} {r : Rule} {s : Step} {n : Nat}

/-- What is read before the header ends opens no construct. -/
theorem kind_ne_opener (h : s.By k c r) (hc : Stacked n c.state c.stack)
    (hrank : s.after.state.headerRank < 5) (con : Construct) : s.token.kind ≠ con.opener := by
  have hkinds := h.relates
    (Q := fun _ kind _ t => t.headerRank < 5 →
      kind ≠ .formulaOpen ∧ kind ≠ .linkOpen ∧ kind ≠ .reactionOpen)
    (by decide) hc hrank
  cases con with
  | formula => exact hkinds.1
  | link => exact hkinds.2.1
  | reaction => exact hkinds.2.2

end Step.By

-- ---------------------------------------------------------------------------
-- Two runs side by side
-- ---------------------------------------------------------------------------

/-- The token of a step that looks up a keyword. -/
theorem Step.By.of_keyword {k : Keywords} {c : Cursor} {r : Rule} {s : Step} (h : s.By k c r)
    (hr : r.emit = .keyword) :
    s.token.value = .text s.token.text ∧ s.token.kind ∈ [TokenKind.word, .todo, .done] := by
  have hread := h.read
  have hkind := h.kind_mem
  rw [hr] at hread hkind
  exact ⟨(Prod.mk.inj hread).2, hkind⟩

/-- With other keywords, the same run reads tokens that are at most one word apart. -/
theorem Cursor.Run.exists_oneWordApart {k : Keywords} {c d : Cursor} {ss : List Step} {n : Nat}
    (h : Run k c ss d) (hc : Stacked n c.state c.stack) (k' : Keywords) :
    ∃ ts, Run k' c ts d ∧ (ts = ss ∨ c.state.headerRank < 5 ∧
      OneWordApart (ss.map Step.token) (ts.map Step.token)) := by
  induction h generalizing n with
  | nil c => exact ⟨[], .nil c, .inl rfl⟩
  | @cons c d s ss head tail ih =>
    obtain ⟨r, hr, m, hm, hchoose⟩ := c.state.exists_rule_choose (rest_ne_nil_of_step? head)
    have hby : s.By k c r := by_of_choose head hr hm hchoose
    -- a keyword is looked up once: up to there the runs agree step by step
    by_cases hkeyword : r.emit = .keyword
    · -- from here on the runs are in free text, and the same
      obtain ⟨hrank, hprose⟩ := Rule.of_keyword hr hkeyword
      have hgoes : (s.after.state, s.after.stack) = (State.prose, []) := by
        rw [hby.goes, hprose]
        rfl
      rw [Prod.mk.injEq] at hgoes
      have htail : Run k' s.after ss d :=
        tail.of_headerRank (hby.stacked hc) (by rw [hgoes.1]; decide)
      have hstep := step?_of_keyword k' head (by rw [hchoose]; exact hkeyword)
      obtain ⟨hvalue, hword⟩ := hby.of_keyword hkeyword
      exact ⟨_, .cons hstep htail, .inr ⟨hrank, @OneWordApart.word [] _ s.token _
        (List.forall_mem_nil _) hvalue hword (k'.kind?_getD_mem s.token.text)⟩⟩
    · have hstep : c.step? k' = some s :=
        (step?_of_emit_ne (by rw [hchoose]; exact hkeyword)).trans head
      obtain ⟨ts, hts, rfl | ⟨hrank, hapart⟩⟩ := ih (hby.stacked hc)
      · exact ⟨s :: ts, .cons hstep hts, .inl rfl⟩
      · have hopen := hby.kind_ne_opener hc hrank
        exact ⟨s :: ts, .cons hstep hts,
          .inr ⟨Nat.lt_of_le_of_lt (hby.headerRank_le hc) hrank, hapart.cons hopen⟩⟩

-- ---------------------------------------------------------------------------
-- Records
-- ---------------------------------------------------------------------------

/-- Tokens that open no construct become nodes of their own. -/
theorem nodes_append_of_plain {before : List Token}
    (hbefore : ∀ b ∈ before, ∀ c : Construct, b.kind ≠ c.opener) (ts : List Token) :
    nodes (before ++ ts) = before.map (⟨·, none⟩) ++ nodes ts := by
  induction before with
  | nil => rfl
  | cons b before ih =>
    obtain ⟨hb, hrest⟩ := List.forall_mem_cons.1 hbefore
    rw [List.cons_append, nodes_cons_of_plain (Node.construct?_eq_none hb _), ih hrest]
    rfl

/-- A record without what depends on which words are keywords. -/
def Record.besidesTasks (r : Record) : Record :=
  { r with todo := none, done := none, body := [], chunks := [] }

/-- A word or a task is nothing else that a record has a field for. -/
theorem TokenKind.ne_of_word {w : TokenKind} (hw : w ∈ [TokenKind.word, .todo, .done]) :
    w ≠ .pin ∧ w ≠ .folder ∧ w ≠ .tag ∧ w ≠ .mention ∧ w ≠ .url ∧
      ∀ c : Construct, w ≠ c.opener := by
  have hcases : w = .word ∨ w = .todo ∨ w = .done := by simpa using hw
  rcases hcases with rfl | rfl | rfl
  all_goals
    refine ⟨by decide, by decide, by decide, by decide, by decide, fun c => ?_⟩
    cases c <;> decide

/-- Words and tasks have entries in the fields for tasks only. -/
theorem Record.besidesTasks_ofNodes (ns ms : List Node) {t : Token} {x : Text} {kind : TokenKind}
    (hvalue : t.value = .text x) (ht : t.kind ∈ [TokenKind.word, .todo, .done])
    (hkind : kind ∈ [TokenKind.word, .todo, .done]) :
    (ofNodes (ns ++ ⟨t, none⟩ :: ms)).besidesTasks =
      (ofNodes (ns ++ ⟨{ t with kind }, none⟩ :: ms)).besidesTasks := by
  have hentry := TokenKind.ne_of_word ht
  have hentry' := TokenKind.ne_of_word hkind
  simp [besidesTasks, ofNodes, List.filterMap_cons, Node.date?, Node.textOf, Node.reaction?,
    Node.event?, Node.bean?, Node.cell?, Node.link?, Node.formula?, Node.violations,
    Node.violationOf, Token.violation, hvalue, hentry, hentry']

/-- Lists that are one word apart are assembled to the same record, but for its tasks, body and
chunks. -/
theorem OneWordApart.besidesTasks_eq {ts us : List Token} (h : OneWordApart ts us) :
    (Record.assemble ts).besidesTasks = (Record.assemble us).besidesTasks := by
  cases h with
  | same => rfl
  | @word before behind t kind hbefore hvalue ht hkind =>
    have hnodes : ∀ {w : Token}, w.kind ∈ [TokenKind.word, .todo, .done] →
        nodes (before ++ w :: behind) = before.map (⟨·, none⟩) ++ ⟨w, none⟩ :: nodes behind := by
      intro w hw
      obtain ⟨-, -, -, -, -, hopener⟩ := TokenKind.ne_of_word hw
      rw [nodes_append_of_plain hbefore, nodes_cons_of_plain (Node.construct?_eq_none hopener _)]
    rw [Record.assemble, Record.assemble, hnodes ht, hnodes hkind]
    exact Record.besidesTasks_ofNodes _ _ hvalue ht hkind

/-- **Which words are keywords has no influence on where a note is cut.**  Under any two choices of
keywords the tokens are the same, but for at most one that is a word, a task or a task done, and so
are the records, but for the task, the task done, the body and the chunks. -/
theorem parse_of_keywords (k k' : Keywords) (note : Text) :
    OneWordApart (tokenize k note) (tokenize k' note) ∧
      (parse k note).besidesTasks = (parse k' note).besidesTasks := by
  obtain ⟨d, hrun, hd⟩ := Cursor.run_steps k note
  obtain ⟨ts, hts, hapart⟩ := hrun.exists_oneWordApart (.empty rfl) k'
  have htokens : tokenize k' note = ts.map Step.token := hts.tokenize_eq hd
  have h : OneWordApart (tokenize k note) (tokenize k' note) := by
    rw [htokens]
    rcases hapart with rfl | ⟨-, hapart⟩
    · exact .same _
    · exact hapart
  exact ⟨h, h.besidesTasks_eq⟩

/-- The words of a note can be tasks or not, but only the first of them. -/
example :
    let keywords : Keywords := ⟨["b".toList], ["a".toList]⟩
    (tokenize keywords "* a b".toList).map (·.kind) = [.pin, .space, .done, .space, .word] ∧
      (tokenize Keywords.standard "* a b".toList).map (·.kind) =
        [.pin, .space, .word, .space, .word] := by
  decide +kernel

end Jot
