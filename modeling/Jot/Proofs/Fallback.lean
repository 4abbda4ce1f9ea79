import Jot.Proofs.Diagnosis

/-!
# Jot — the fallback of a state

A state that finds no rule for a text falls back on the violation that it reports, or on a word.
It never has to: every table but that of a reaction has a rule for white space and one for what is
not, and the last rule of a reaction takes whatever remains.  So each token is read by a declared
rule, and an error by one that reports its violation, where no other rule of the state matches.

* `State.Reads` — the rule by which a state reads a text;
* `State.exists_reads` — a state reads every text that is not empty by some rule;
* `State.Reads.alone` — a rule that reports a violation is the only one that matches;
* `Cursor.Run.declared` — the steps of a run do what such rules say;
* `fallback_unreachable` — all of it, for every state and for every note.
-/

namespace Jot

variable {k : Keywords} {c d : Cursor} {s : Step} {ss : List Step} {state : State} {r : Rule}
  {t : Text} {n : Nat} {v : ViolationKind}

-- ---------------------------------------------------------------------------
-- The rule by which a state reads a text
-- ---------------------------------------------------------------------------

/-- The state reads the first `n` characters of `t` by the rule `r`. -/
structure State.Reads (state : State) (t : Text) (r : Rule) (n : Nat) : Prop where
  /-- The state declares the rule, and no rule in front of it matches. -/
  first  : ∃ pre post, state.rules = pre ++ r :: post ∧ ∀ q ∈ pre, q.pattern.take? t = none
  take   : r.pattern.take? t = some n
  pos    : 0 < n
  le     : n ≤ t.length
  /-- The table has an answer, and it is this answer that the state gives, not its fallback. -/
  found  : firstMatch? state.rules t = some ⟨n, r.emit, r.transition⟩
  chosen : state.choose t = ⟨n, r.emit, r.transition⟩

/-- A state reads every text that is not empty by the first of its rules that matches. -/
theorem State.exists_reads (state : State) (ht : t ≠ []) : ∃ r n, state.Reads t r n := by
  have hfound := state.firstMatch?_rules ht
  obtain ⟨pre, r, post, n, hrules, hpre, hr, hchosen⟩ := firstMatch?_eq_some_iff.1 hfound
  exact ⟨r, n, {
    first  := ⟨pre, post, hrules, hpre⟩
    take   := hr
    pos    := Pattern.take?_pos hr
    le     := Pattern.take?_le hr
    found  := hfound.trans (congrArg some hchosen)
    chosen := hchosen }⟩

theorem State.Reads.mem_rules (h : state.Reads t r n) : r ∈ state.rules := by
  obtain ⟨pre, post, hrules, -⟩ := h.first
  rw [hrules]
  exact List.mem_append_right pre List.mem_cons_self

/-- The rules that report violations are the last ones of their tables. -/
theorem State.eq_nil_of_violation {pre post : List Rule} (hrules : state.rules = pre ++ r :: post)
    (hv : r.emit = .error v) : post = [] := by
  have table : ∀ state ∈ State.all, ∀ r ∈ state.rules.dropLast, r.emit.violation? = none := by
    decide
  cases post with
  | nil => rfl
  | cons q post =>
    -- a rule with another one behind it is among those that report nothing
    have hmem : r ∈ state.rules.dropLast := by
      rw [hrules, List.dropLast_append_of_ne_nil (List.cons_ne_nil r _), List.dropLast_cons_cons]
      exact List.mem_append_right pre List.mem_cons_self
    have hnone := table state state.mem_all r hmem
    rw [hv] at hnone
    contradiction

/-- Where a violation is reported no other rule of the state matches. -/
theorem State.Reads.alone (h : state.Reads t r n) (hv : r.emit = .error v) :
    ∀ q ∈ state.rules, q ≠ r → q.pattern.take? t = none := by
  intro q hq hne
  obtain ⟨pre, post, hrules, hpre⟩ := h.first
  obtain rfl := State.eq_nil_of_violation hrules hv
  rw [hrules, List.mem_append, List.mem_singleton] at hq
  exact hpre q (hq.resolve_right hne)

-- ---------------------------------------------------------------------------
-- Steps
-- ---------------------------------------------------------------------------

/-- The step is what the rule `r` of its state makes of the text. -/
structure Step.Declared (k : Keywords) (s : Step) (r : Rule) : Prop where
  work   : s.By k s.before r
  reads  : s.before.state.Reads s.before.rest r s.token.text.length
  choice : s.choice = ⟨s.token.text.length, r.emit, r.transition⟩

/-- Every step of the lexer is the work of a declared rule. -/
theorem Cursor.declared_of_step? (h : c.step? k = some s) : ∃ r, s.Declared k r := by
  obtain ⟨r, n, hr⟩ := c.state.exists_reads (rest_ne_nil_of_step? h)
  have hwork : s.By k c r := by_of_choose h hr.mem_rules hr.take hr.chosen
  -- what the rule takes is the text of the token, no more and no less
  obtain rfl : n = s.token.text.length := Option.some.inj (hr.take.symm.trans hwork.take)
  have hchoice := (choice_of_step? h).trans hr.chosen
  obtain rfl := hwork.before
  exact ⟨r, hwork, hr, hchoice⟩

/-- Every step of a run is the work of a declared rule. -/
theorem Cursor.Run.declared (h : Run k c ss d) : ∀ s ∈ ss, ∃ r, s.Declared k r := by
  induction h with
  | nil => simp
  | cons head _ ih => exact List.forall_mem_cons.2 ⟨declared_of_step? head, ih⟩

/-- A rule that reports a violation makes it the value of the token. -/
theorem Step.Declared.value_eq (h : s.Declared k r) (hv : r.emit = .error v) :
    s.token.value = .error (.of v s.token.text) := by
  have hread := congrArg Prod.snd h.work.read
  rwa [hv] at hread

/-- **The fallback is unreachable.**  Every state reads every text that is not empty by the first of
its rules that matches, which takes at least one character, and so does every step of a note.  An
error token is read by a rule that reports its violation, where no other rule of the state
matches. -/
theorem fallback_unreachable (k : Keywords) (note : Text) :
    (∀ (state : State) (t : Text), t ≠ [] → ∃ r n, state.Reads t r n) ∧
    (∀ s ∈ steps k note, ∃ r, s.Declared k r) ∧
    ∀ x ∈ tokenize k note, x.kind = .error → ∃ s ∈ steps k note, s.token = x ∧
      ∃ r v, s.Declared k r ∧ r.emit = .error v ∧ x.value = .error (.of v x.text) ∧
        ∀ q ∈ s.before.state.rules, q ≠ r → q.pattern.take? s.before.rest = none := by
  obtain ⟨d, hrun, -⟩ := Cursor.run_steps k note
  refine ⟨fun state t ht => state.exists_reads ht, hrun.declared, ?_⟩
  intro x hx hk
  obtain ⟨s, hs, rfl⟩ := List.mem_map.1 hx
  obtain ⟨r, hr⟩ := hrun.declared s hs
  obtain ⟨v, hv, -⟩ := hr.work.exists_violation hk
  exact ⟨s, hs, rfl, r, v, hr, hv, hr.value_eq hv, hr.reads.alone hv⟩

/-- The last character of a reaction that is not closed is no closing quote, and it is too short for
a body. -/
theorem fallback_unreachable_unclosed :
    (∃ r n, State.reaction.Reads ['b'] r n) ∧
    ∃ x ∈ tokenize Keywords.standard "Liked “ab".toList, (x.kind, x.text) = (.error, ['b']) ∧
      ∃ s ∈ steps Keywords.standard "Liked “ab".toList, s.token = x ∧
        ∃ r v, s.Declared Keywords.standard r ∧ r.emit = .error v ∧
          x.value = .error (.of v ['b']) ∧
          ∀ q ∈ s.before.state.rules, q ≠ r → q.pattern.take? s.before.rest = none := by
  obtain ⟨hstates, -, herrors⟩ := fallback_unreachable Keywords.standard "Liked “ab".toList
  obtain ⟨x, hx, hlexeme⟩ : ∃ x ∈ tokenize Keywords.standard "Liked “ab".toList,
      (x.kind, x.text) = (.error, ['b']) := by
    decide +kernel
  obtain ⟨hkind, htext⟩ := Prod.mk.inj hlexeme
  obtain ⟨s, hs, hsx, r, v, hr, hv, hvalue, halone⟩ := herrors x hx hkind
  refine ⟨hstates .reaction ['b'] (List.cons_ne_nil 'b' []), x, hx, hlexeme, s, hs, hsx, r, v, hr,
    hv, ?_, halone⟩
  rw [← htext]
  exact hvalue

end Jot
