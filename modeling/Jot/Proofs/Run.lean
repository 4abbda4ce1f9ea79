import Jot.Lexer

/-!
# Jot — runs of the lexer

The table of every state is exhaustive, so each step of the lexer is the work of a declared rule.
`Step.By` records everything that a step by some rule does to the cursor, and `Cursor.Run` chains
steps.  Facts about whole notes are proved for one step first and then for runs.

* `State.exists_rule_take?` — some rule of every state matches every non-empty text;
* `State.firstMatch?_rules` — so what a state makes of a text is what its first such rule says;
* `Cursor.exists_rule_of_step?` — what a step does, and by which rule;
* `Cursor.run_steps` — the steps of a note are one run, and it ends where nothing is left.
-/

namespace Jot

-- ---------------------------------------------------------------------------
-- The tables of rules
-- ---------------------------------------------------------------------------

/-- What holds of every rule in the table of every state holds of a rule in the table of `s`. -/
theorem State.forall_rules {P : State → Rule → Prop}
    (h : ∀ s ∈ State.all, ∀ r ∈ s.rules, P s r) {s : State} {r : Rule} (hr : r ∈ s.rules) :
    P s r :=
  h s s.mem_all r hr

/-- A table matches every text when it has a rule for blanks and one for everything else, or one
rule for all that remains. -/
theorem State.rules_exhaustive (s : State) :
    (∃ r ∈ s.rules, r.pattern = .remainder) ∨
      (∃ r ∈ s.rules, r.pattern = .whitespace) ∧ ∃ r ∈ s.rules, r.pattern = .symbol := by
  have table : ∀ s ∈ State.all, (∃ r ∈ s.rules, r.pattern = .remainder) ∨
      (∃ r ∈ s.rules, r.pattern = .whitespace) ∧ ∃ r ∈ s.rules, r.pattern = .symbol := by
    decide
  exact table s s.mem_all

theorem Recognizer.many1_isSome {p : Char → Bool} {c : Char} (hc : p c = true) (t : Text) :
    ∃ n, 0 < n ∧ many1 p (c :: t) = some n := by
  refine ⟨(t.takeWhile p).length + 1, Nat.succ_pos _, ?_⟩
  simp [many1, List.takeWhile_cons_of_pos hc]

theorem Pattern.exists_take? {p : Pattern} {t : Text} {n : Nat} (hn : 0 < n)
    (h : p.recognizer t = some n) : ∃ n, p.take? t = some n :=
  ⟨n, by simp [take?, h, hn]⟩

/-- Some rule of every state matches every text that is not empty. -/
theorem State.exists_rule_take? (s : State) {t : Text} (ht : t ≠ []) :
    ∃ r ∈ s.rules, ∃ n, r.pattern.take? t = some n := by
  obtain ⟨c, t, rfl⟩ := List.exists_cons_of_ne_nil ht
  rcases s.rules_exhaustive with ⟨r, hr, hp⟩ | ⟨⟨r, hr, hp⟩, ⟨r', hr', hp'⟩⟩
  · exact ⟨r, hr, hp ▸ Pattern.exists_take? (Nat.succ_pos t.length) rfl⟩
  · -- the rule for white space matches a blank, and that for symbols anything else
    by_cases hc : isBlank c = true
    · obtain ⟨n, hn, h⟩ := Recognizer.many1_isSome hc t
      exact ⟨r, hr, hp ▸ Pattern.exists_take? hn h⟩
    · have hc' : (!isBlank c) = true := by simpa using hc
      obtain ⟨n, hn, h⟩ := Recognizer.many1_isSome (p := fun c => !isBlank c) hc' t
      exact ⟨r', hr', hp' ▸ Pattern.exists_take? hn h⟩

/-- A state always finds a rule: its fallback is never used. -/
theorem State.firstMatch?_rules (s : State) {t : Text} (ht : t ≠ []) :
    firstMatch? s.rules t = some (s.choose t) := by
  cases hm : firstMatch? s.rules t with
  | some c => rw [choose, hm, Option.getD_some]
  | none =>
    -- the rule that matches would have been found
    obtain ⟨r, hr, n, hn⟩ := s.exists_rule_take? ht
    have := List.findSome?_eq_none_iff.1 hm r hr
    simp [hn] at this

/-- What a state makes of a text is what one of its rules says. -/
theorem State.exists_rule_choose (s : State) {t : Text} (ht : t ≠ []) :
    ∃ r ∈ s.rules, ∃ n, r.pattern.take? t = some n ∧ s.choose t = ⟨n, r.emit, r.transition⟩ := by
  obtain ⟨r, hr, hc⟩ := List.exists_of_findSome?_eq_some (s.firstMatch?_rules ht)
  obtain ⟨n, hn, hc⟩ := Option.map_eq_some_iff.1 hc
  exact ⟨r, hr, n, hn, hc.symm⟩

-- ---------------------------------------------------------------------------
-- Kinds of token
-- ---------------------------------------------------------------------------

/-- The kinds of token that a matched text can become. -/
def Emit.kinds : Emit → List TokenKind
  | .token k => [k]
  | .keyword => [.word, .todo, .done]
  | .error _ => [.error]

/-- A word is plain, a keyword for things to do, or one for things done. -/
theorem Keywords.kind?_getD_mem (k : Keywords) (t : Text) :
    (k.kind? t).getD .word ∈ Emit.keyword.kinds := by
  unfold Keywords.kind?
  split
  · decide
  · split <;> decide

/-- A matched text becomes a token of one of the kinds of its rule. -/
theorem Emit.read_mem_kinds (k : Keywords) (t : Text) (e : Emit) : (e.read k t).1 ∈ e.kinds := by
  cases e with
  | token kind => exact List.mem_singleton.2 rfl
  | keyword => exact k.kind?_getD_mem t
  | error v => exact List.mem_singleton.2 rfl

-- ---------------------------------------------------------------------------
-- One step
-- ---------------------------------------------------------------------------

/-- Everything that a step from `c` by the rule `r` does. -/
structure Step.By (k : Keywords) (c : Cursor) (r : Rule) (s : Step) : Prop where
  rule   : r ∈ c.state.rules
  take   : r.pattern.take? c.rest = some s.token.text.length
  before : s.before = c
  rest   : c.rest = s.token.text ++ s.after.rest
  piece  : s.token.toPiece = Piece.ofText c.place s.token.text
  read   : (s.token.kind, s.token.value) = r.emit.read k s.token.text
  place  : s.after.place = c.place.after s.token.text
  goes   : (s.after.state, s.after.stack) = r.transition.apply c.state c.stack

namespace Cursor

variable {k : Keywords} {c d e : Cursor} {s : Step} {ss ts : List Step}

/-- The lexer stops at the end of the text and nowhere else. -/
theorem step?_eq_none_iff : c.step? k = none ↔ c.rest = [] := by
  unfold step?
  split <;> simp_all

theorem rest_ne_nil_of_step? (h : c.step? k = some s) : c.rest ≠ [] := by
  intro hnil
  rw [step?_eq_none_iff.2 hnil] at h
  contradiction

/-- A step records what its state made of the text. -/
theorem choice_of_step? (h : c.step? k = some s) : s.choice = c.state.choose c.rest := by
  unfold step? at h
  split at h
  · contradiction
  · cases h
    rfl

/-- A step is the work of the rule that is chosen. -/
theorem by_of_choose {r : Rule} {n : Nat} (h : c.step? k = some s) (hr : r ∈ c.state.rules)
    (hn : r.pattern.take? c.rest = some n)
    (hc : c.state.choose c.rest = ⟨n, r.emit, r.transition⟩) : s.By k c r := by
  unfold step? at h
  split at h
  · contradiction
  · have hlen : (c.rest.take n).length = n := List.length_take_of_le (Pattern.take?_le hn)
    rw [hc] at h
    cases h
    exact {
      rule   := hr
      take   := by simpa only [Piece.ofText, hlen] using hn
      before := rfl
      rest   := (List.take_append_drop n c.rest).symm
      piece  := rfl
      read   := rfl
      place  := rfl
      goes   := rfl }

/-- A step is the work of a rule of the state in which it begins. -/
theorem exists_rule_of_step? (h : c.step? k = some s) : ∃ r, s.By k c r := by
  obtain ⟨r, hr, n, hn, hc⟩ := c.state.exists_rule_choose (rest_ne_nil_of_step? h)
  exact ⟨r, by_of_choose h hr hn hc⟩

end Cursor

theorem Step.By.text_ne_nil {k : Keywords} {c : Cursor} {r : Rule} {s : Step}
    (h : s.By k c r) : s.token.text ≠ [] :=
  List.length_pos_iff.1 (Pattern.take?_pos h.take)

/-- The token of a step has one of the kinds of its rule. -/
theorem Step.By.kind_mem {k : Keywords} {c : Cursor} {r : Rule} {s : Step} (h : s.By k c r) :
    s.token.kind ∈ r.emit.kinds := by
  have hkind : s.token.kind = (r.emit.read k s.token.text).1 := congrArg Prod.fst h.read
  exact hkind ▸ r.emit.read_mem_kinds k s.token.text

-- ---------------------------------------------------------------------------
-- Runs
-- ---------------------------------------------------------------------------

namespace Cursor

variable {k : Keywords} {c d e : Cursor} {s : Step} {ss ts : List Step}

/-- The steps `ss`, one after the other, lead from one cursor to another. -/
inductive Run (k : Keywords) : Cursor → List Step → Cursor → Prop where
  | nil (c : Cursor) : Run k c [] c
  | cons {c d : Cursor} {s : Step} {ss : List Step} (head : c.step? k = some s)
      (tail : Run k s.after ss d) : Run k c (s :: ss) d

/-- From every cursor the lexer runs to the end of its text. -/
theorem run_stepsFrom (k : Keywords) (c : Cursor) :
    ∃ d, Run k c (c.stepsFrom k []) d ∧ d.rest = [] := by
  cases h : c.step? k with
  | none => exact ⟨c, stepsFrom_none h ▸ .nil c, step?_eq_none_iff.1 h⟩
  | some s =>
    obtain ⟨d, hrun, hd⟩ := run_stepsFrom k s.after
    exact ⟨d, stepsFrom_cons h ▸ .cons h hrun, hd⟩
termination_by c.rest.length
decreasing_by exact rest_length_lt_of_step? h

/-- The steps of a note are one run, at whose end nothing is left. -/
theorem run_steps (k : Keywords) (note : Text) :
    ∃ d, Run k (start note) (steps k note) d ∧ d.rest = [] :=
  run_stepsFrom k (start note)

/-- A run of two parts is one run behind the other. -/
theorem run_append_iff : Run k c (ss ++ ts) e ↔ ∃ d, Run k c ss d ∧ Run k d ts e := by
  constructor
  · -- on the first part, from any cursor: the one between the parts is met at its end
    intro h
    induction ss generalizing c with
    | nil => exact ⟨c, .nil c, h⟩
    | cons s ss ih =>
      cases h with
      | cons head tail =>
        obtain ⟨d, hss, hts⟩ := ih tail
        exact ⟨d, .cons head hss, hts⟩
  · rintro ⟨d, hss, hts⟩
    induction hss with
    | nil => exact hts
    | cons head _ ih => exact .cons head (ih hts)

/-- The first step of a run is the work of a rule, and the run goes on behind it. -/
theorem Run.uncons (h : Run k c (s :: ss) d) : ∃ r, s.By k c r ∧ Run k s.after ss d := by
  cases h with
  | cons head tail =>
    obtain ⟨r, hr⟩ := exists_rule_of_step? head
    exact ⟨r, hr, tail⟩

/-- The last step of a run is the work of a rule, and the run ends behind it. -/
theorem Run.exists_last (h : Run k c (ss ++ [s]) e) :
    ∃ d r, Run k c ss d ∧ s.By k d r ∧ e = s.after := by
  obtain ⟨d, hss, hlast⟩ := run_append_iff.1 h
  obtain ⟨r, hr, tail⟩ := hlast.uncons
  cases tail with
  | nil => exact ⟨d, r, hss, hr, rfl⟩

/-- What every step keeps, a run keeps. -/
theorem Run.keeps {P : Cursor → Prop}
    (step : ∀ {c : Cursor} {r : Rule} {s : Step}, s.By k c r → P c → P s.after)
    (h : Run k c ss d) (hc : P c) : P d := by
  induction h with
  | nil => exact hc
  | cons head _ ih =>
    obtain ⟨r, hr⟩ := exists_rule_of_step? head
    exact ih (step hr hc)

/-- Every step of a run is the work of some rule. -/
theorem Run.exists_rule (h : Run k c ss d) : ∀ s ∈ ss, ∃ c r, s.By k c r := by
  induction h with
  | nil => simp
  | cons head _ ih =>
    obtain ⟨r, hr⟩ := exists_rule_of_step? head
    exact List.forall_mem_cons.2 ⟨⟨_, r, hr⟩, ih⟩

/-- A run reads exactly the text between its two ends. -/
theorem Run.rest_eq (h : Run k c ss d) :
    c.rest = ss.flatMap (·.token.text) ++ d.rest := by
  induction h with
  | nil => rfl
  | cons head _ ih =>
    obtain ⟨r, hr⟩ := exists_rule_of_step? head
    rw [hr.rest, ih, List.flatMap_cons, List.append_assoc]

/-- A run ends where its text ends. -/
theorem Run.place_eq (h : Run k c ss d) :
    d.place = c.place.after (ss.flatMap (·.token.text)) := by
  induction h with
  | nil => rfl
  | cons head _ ih =>
    obtain ⟨r, hr⟩ := exists_rule_of_step? head
    rw [ih, hr.place, List.flatMap_cons, Place.after_append]

/-- The steps to the end of a note read all that is left of it. -/
theorem flatMap_text_stepsFrom (k : Keywords) (c : Cursor) :
    (c.stepsFrom k []).flatMap (·.token.text) = c.rest := by
  obtain ⟨d, hrun, hd⟩ := run_stepsFrom k c
  rw [hrun.rest_eq, hd, List.append_nil]

end Cursor

/-- Every token of a note was read by some rule. -/
theorem exists_rule_of_mem_tokenize {k : Keywords} {note : Text} {t : Token}
    (ht : t ∈ tokenize k note) :
    ∃ (s : Step) (c : Cursor) (r : Rule), s.By k c r ∧ s.token = t := by
  obtain ⟨s, hs, rfl⟩ := List.mem_map.1 ht
  obtain ⟨d, hrun, -⟩ := Cursor.run_steps k note
  obtain ⟨c, r, hr⟩ := hrun.exists_rule s hs
  exact ⟨s, c, r, hr, rfl⟩

/-- Tokens have the text of the note. -/
theorem flatMap_text_tokenize (k : Keywords) (note : Text) :
    (tokenize k note).flatMap (·.text) = note := by
  rw [tokenize, List.flatMap_map]
  exact Cursor.flatMap_text_stepsFrom k (Cursor.start note)

end Jot
