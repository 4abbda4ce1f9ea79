import Jot.Proofs.Extent.Basic

/-!
# Jot — where formulas end

The lexer keeps the calls that are open on its stack and the reader keeps them on its list of
frames; `Stacked` counts the former, so the simulation of the reader of calls only has to carry
that both are equally many.

* `Step.By.callMove` — what a step in a call does to the kinds and to the stack;
* `Call.consumed_readFrom` — calls, however deep they are nested;
* `Formula.finish_readSetup` — the group of the name and the call behind it.
-/

namespace Jot

variable {k : Keywords} {c d : Cursor} {r : Rule} {s : Step} {ss : List Step} {n : Nat}

-- ---------------------------------------------------------------------------
-- Calls
-- ---------------------------------------------------------------------------

/-- The states behind the opening parenthesis of a call. -/
def State.isCall : State → Bool
  | formula .operator | formula .arguments | formula .innerOperator
  | formula .innerArguments => true
  | _ => false

theorem State.ne_prose_of_isCall {s : State} (h : s.isCall = true) : s ≠ .prose := by
  rintro rfl
  contradiction

/-- What a step can do in a call while `n` calls are open around it. -/
inductive CallMove (n : Nat) (s : Step) : Prop where
  | opens (hk : s.token.kind = .lparen) (hs : s.after.state.isCall = true)
      (h : Stacked (n + 1) s.after.state s.after.stack)
  | within (hk : s.token.kind = .operator ∨ s.token.kind = .arg ∨ s.token.kind = .space)
      (hs : s.after.state.isCall = true) (h : Stacked n s.after.state s.after.stack)
  | returns (hk : s.token.kind = .rparen) (hs : s.after.state.isCall = true) (hn : 0 < n)
      (h : Stacked (n - 1) s.after.state s.after.stack)
  | closes (hk : s.token.kind = .rparen) (hn : n = 0) (h : s.after.state = .prose)
  | fails (hk : s.token.kind = .error) (h : s.after.state = .prose)

/-- A transition from one part of a call to another. -/
def Transition.isFlat : Transition → Bool
  | .stay | .next (.formula .arguments) | .next (.formula .innerArguments) => true
  | _ => false

theorem Transition.depth_of_isFlat {tr : Transition} (h : tr.isFlat = true) (n : Nat) :
    tr.depth n = n := by
  unfold isFlat at h
  split at h <;> first | rfl | contradiction

/-- Every step in a call is one of these moves.  The kinds are read off the rules; whether a
parenthesis closes the last call is a matter of the stack. -/
theorem Step.By.callMove (h : s.By k c r) (hc : Stacked n c.state c.stack)
    (hcall : c.state.isCall = true) : CallMove n s := by
  have hstack := h.stacked hc
  -- what a rule says of the kind and the transition, and, apart from that, of closing parentheses
  have htable := h.relates
    (Q := fun s kind tr t => s.isCall = true →
      (kind = .lparen ∧ tr = .push (.formula .innerOperator) ∧ t.isCall = true) ∨
      ((kind = .operator ∨ kind = .arg ∨ kind = .space) ∧ tr.isFlat = true ∧ t.isCall = true) ∨
      kind = .rparen ∨ (kind = .error ∧ t = .prose))
    (by decide) hc hcall
  have hclosing := h.relates
    (Q := fun s kind tr t => s.isCall = true → kind = .rparen →
      (s = .formula .innerArguments ∧ tr = .pop ∧ t.isCall = true) ∨
      (s = .formula .arguments ∧ t = .prose))
    (by decide) hc hcall
  rcases htable with ⟨hk, htr, ht⟩ | ⟨hk, htr, ht⟩ | hk | ⟨hk, ht⟩
  · rw [htr] at hstack
    exact .opens hk ht hstack
  · rw [Transition.depth_of_isFlat htr] at hstack
    exact .within hk ht hstack
  · rcases hclosing hk with ⟨hs, htr, ht⟩ | ⟨hs, ht⟩
    · rw [htr] at hstack
      rw [hs] at hc
      exact .returns hk ht (hc.shape_eq_nested rfl).pos hstack
    · -- in the procedure itself no other call is open
      rw [hs] at hc
      exact .closes hk (hc.shape_eq_based rfl).1 ht
  · exact .fails hk ht

/-- The reader of calls ends where the lexer leaves the formula: it has one frame for each call
that is open in the lexer. -/
theorem Call.consumed_readFrom (h : Cursor.Run k c ss d) (hc : Stacked n c.state c.stack)
    (hcall : c.state.isCall = true) (i : Nat) (f : Frame) (outer : List Frame)
    (houter : outer.length = n) :
    (readFrom i f outer (ss.map Step.token)).consumed =
      i + extent Construct.formula.endsAt ss := by
  -- by induction on the run; the invariant is that there are as many frames below as calls around
  induction h generalizing n i f outer with
  | nil => rfl
  | @cons c d s ss head _ ih =>
    obtain ⟨r, hr⟩ := Cursor.exists_rule_of_step? head
    rw [List.map_cons, readFrom]
    cases hr.callMove hc hcall with
    | opens hk hs hstack =>
      have hne := State.ne_prose_of_isCall hs
      rw [extent_cons_of_not_stop (decide_eq_false hne)]
      simp only [hk]
      rw [ih hstack hs (i + 1) _ (f :: outer) (by rw [List.length_cons, houter])]
      omega
    | within hk hs hstack =>
      have hne := State.ne_prose_of_isCall hs
      rw [extent_cons_of_not_stop (decide_eq_false hne)]
      rcases hk with hk | hk | hk
      all_goals
        simp only [hk]
        rw [ih hstack hs (i + 1) _ outer houter]
        omega
    | returns hk hs hpos hstack =>
      have hne := State.ne_prose_of_isCall hs
      rw [extent_cons_of_not_stop (decide_eq_false hne)]
      simp only [hk]
      -- the lexer pops a state where the reader pops a frame
      cases outer with
      | nil =>
        rw [← houter] at hpos
        contradiction
      | cons g outer =>
        rw [List.length_cons] at houter
        show (readFrom (i + 1) _ outer _).consumed = _
        rw [ih hstack hs (i + 1) _ outer (by omega)]
        omega
    | closes hk hn hprose =>
      rw [extent_cons_of_stop (decide_eq_true hprose)]
      simp only [hk]
      -- no call is open around this one, so there is no frame below
      cases outer with
      | nil => rfl
      | cons g outer =>
        rw [List.length_cons] at houter
        omega
    | fails hk hprose =>
      rw [extent_cons_of_stop (decide_eq_true hprose)]
      simp only [hk]

-- ---------------------------------------------------------------------------
-- Formulas
-- ---------------------------------------------------------------------------

/-- The states in the group that holds the name of a formula, and before it. -/
def State.isSetup : State → Bool
  | formula .opened | formula .name | formula .nameEnd => true
  | _ => false

/-- What a step can do in the group of the name. -/
theorem Step.By.setup_cases (h : s.By k c r) (hc : Stacked n c.state c.stack)
    (hs : c.state.isSetup = true) :
    ((s.token.kind = .lparen ∨ s.token.kind = .space ∨ s.token.kind = .arg) ∧
      s.after.state.isSetup = true) ∨
    (s.token.kind = .rparen ∧ s.after.state = .formula .procedure) ∨
    (s.token.kind = .error ∧ s.after.state = .prose) :=
  h.relates
    (Q := fun s kind _ t => s.isSetup = true →
      ((kind = .lparen ∨ kind = .space ∨ kind = .arg) ∧ t.isSetup = true) ∨
      (kind = .rparen ∧ t = .formula .procedure) ∨ (kind = .error ∧ t = .prose))
    (by decide) hc hs

/-- What a step can do between the name and the call. -/
theorem Step.By.procedure_cases (h : s.By k c r) (hc : Stacked n c.state c.stack)
    (hs : c.state = .formula .procedure) :
    (s.token.kind = .space ∧ s.after.state = .formula .procedure) ∨
    (s.token.kind = .lparen ∧ s.after.state = .formula .operator) ∨
    (s.token.kind = .error ∧ s.after.state = .prose) :=
  h.relates
    (Q := fun s kind _ t => s = .formula .procedure →
      (kind = .space ∧ t = .formula .procedure) ∨ (kind = .lparen ∧ t = .formula .operator) ∨
      (kind = .error ∧ t = .prose))
    (by decide) hc hs

/-- A call is read from its opening parenthesis on. -/
theorem Call.consumed_read {t : Token} (ht : t.kind = .lparen) (ts : List Token) :
    (Call.read (t :: ts)).consumed = (readFrom 1 (Frame.enter t) [] ts).consumed := by
  rw [Call.read, if_pos ht]

/-- Behind the group of the name, reader and lexer go on alike: over spaces and through the call. -/
theorem Formula.consumed_readProcedure (h : Cursor.Run k c ss d)
    (hc : Stacked n c.state c.stack) (hs : c.state = .formula .procedure) (i : Nat) :
    (readProcedure i (ss.map Step.token)).consumed =
      i + extent Construct.formula.endsAt ss := by
  induction h generalizing n i with
  | nil => rfl
  | @cons c d s ss head tail ih =>
    obtain ⟨r, hr⟩ := Cursor.exists_rule_of_step? head
    have hstack := hr.stacked hc
    rw [List.map_cons, readProcedure]
    rcases hr.procedure_cases hc hs with ⟨hk, ht⟩ | ⟨hk, ht⟩ | ⟨hk, ht⟩
    · have hne : s.after.state ≠ .prose := by rw [ht]; decide
      rw [extent_cons_of_not_stop (decide_eq_false hne)]
      simp only [hk]
      rw [ih hstack ht (i + 1)]
      omega
    · have hne : s.after.state ≠ .prose := by rw [ht]; decide
      have hcall : s.after.state.isCall = true := by rw [ht]; rfl
      -- the call stands at the bottom of the stack, where no frame is below
      have hbased := (ht ▸ hstack).shape_eq_based rfl
      rw [extent_cons_of_not_stop (decide_eq_false hne)]
      simp only [hk]
      rw [Call.consumed_read hk, Call.consumed_readFrom tail hstack hcall 1 _ [] hbased.1.symm]
      omega
    · rw [extent_cons_of_stop (decide_eq_true ht)]
      simp only [hk]

/-- The number of tokens of a formula, once the group of its name has been read. -/
def Formula.Setup.finish (g : Setup) : Nat :=
  if g.closed then (readProcedure g.consumed g.rest).consumed else g.consumed

/-- A formula ends where the lexer leaves its states, from the group of the name on. -/
theorem Formula.finish_readSetup (h : Cursor.Run k c ss d) (hc : Stacked n c.state c.stack)
    (hs : c.state.isSetup = true) (i : Nat) (name : Option Text) :
    (readSetup i name (ss.map Step.token)).finish =
      i + extent Construct.formula.endsAt ss := by
  induction h generalizing n i name with
  | nil => rfl
  | @cons c d s ss head tail ih =>
    obtain ⟨r, hr⟩ := Cursor.exists_rule_of_step? head
    have hstack := hr.stacked hc
    rw [List.map_cons, readSetup]
    rcases hr.setup_cases hc hs with ⟨hk, ht⟩ | ⟨hk, ht⟩ | ⟨hk, ht⟩
    · have hne : s.after.state ≠ .prose := by
        intro hprose
        rw [hprose] at ht
        contradiction
      rw [extent_cons_of_not_stop (decide_eq_false hne)]
      rcases hk with hk | hk | hk
      all_goals
        simp only [hk]
        rw [ih hstack ht (i + 1)]
        omega
    · have hne : s.after.state ≠ .prose := by rw [ht]; decide
      rw [extent_cons_of_not_stop (decide_eq_false hne)]
      simp only [hk, Setup.finish, if_true]
      rw [consumed_readProcedure tail hstack ht (i + 1)]
      omega
    · rw [extent_cons_of_stop (decide_eq_true ht)]
      simp only [hk, Setup.finish]
      rfl

end Jot
