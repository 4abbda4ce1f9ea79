import Jot.Proofs.Run

/-!
# Jot — the stack of the lexer

The states to return to are only ever returned to from a nested call, but they pile up: a marker,
a link or a formula remembers where it began, and links may follow one another without free text
between them.  `Stacked n s stack` says which stacks go with a state, and counts the nested calls
that are open in it.

* `Stacked.apply` — every rule keeps this, and moves the count as its transition says;
* `Stacked.pop` — returning never finds the stack empty, and leads back into a formula;
* `Step.By.relates` — so facts about the tables are facts about all steps.
-/

namespace Jot

-- ---------------------------------------------------------------------------
-- Stacks that go with a state
-- ---------------------------------------------------------------------------

/-- What stands on the stack while the lexer is in a state. -/
inductive StackShape where
  /-- Nothing. -/
  | empty
  /-- A state in which a note goes on, and above it one state for each link in a chain. -/
  | based
  /-- In addition the formula and the calls around a nested call. -/
  | nested
deriving DecidableEq

/-- The shape of the stack in a state. -/
def State.shape : State → StackShape
  | start | prose | pin | date | folder | folderEnd | reaction => .empty
  | formula .innerOperator | formula .innerArguments => .nested
  | _ => .based

/-- The states that can be at the bottom of a stack. -/
def State.isBase : State → Bool
  | start | prose | pin | date | folderEnd => true
  | _ => false

/-- A stack on which no formula has been left for a nested call. -/
inductive Based : List State → Prop where
  | bottom {s : State} (h : s.isBase = true) : Based [s]
  | link {stack : List State} (h : Based stack) : Based (.link .image :: stack)

/-- A stack on which a formula has been left for `n` calls, each nested in the one before. -/
inductive Nested : Nat → List State → Prop where
  | procedure {stack : List State} (h : Based stack) : Nested 1 (.formula .arguments :: stack)
  | call {n : Nat} {stack : List State} (h : Nested n stack) :
      Nested (n + 1) (.formula .innerArguments :: stack)

theorem Nested.pos {n : Nat} {stack : List State} (h : Nested n stack) : 0 < n := by
  cases h <;> omega

/-- The stack goes with the state, and `n` nested calls are open. -/
inductive Stacked : Nat → State → List State → Prop where
  | empty {s : State} (hs : s.shape = .empty) : Stacked 0 s []
  | based {s : State} {stack : List State} (hs : s.shape = .based) (h : Based stack) :
      Stacked 0 s stack
  | nested {n : Nat} {s : State} {stack : List State} (hs : s.shape = .nested)
      (h : Nested n stack) : Stacked n s stack

-- ---------------------------------------------------------------------------
-- Rules keep the shape
-- ---------------------------------------------------------------------------

/-- A transition moves between states of one shape, or pushes and returns where the shapes
say. -/
def Transition.fits (s : State) : Transition → Bool
  | .stay => true
  | .next t => t == .prose || t.shape == s.shape
  | .push t =>
    ((s.isBase || s == .link .image) && t.shape == .based) ||
      ((s == .formula .arguments || s == .formula .innerArguments) &&
        t == .formula .innerOperator)
  | .pop => s == .formula .innerArguments

/-- All rules fit their states, by the tables. -/
theorem State.fits_of_mem_rules {s : State} {r : Rule} (hr : r ∈ s.rules) :
    r.transition.fits s = true :=
  State.forall_rules (P := fun s r => r.transition.fits s = true) (by decide) hr

/-- The number of open nested calls behind a transition. -/
def Transition.depth (n : Nat) : Transition → Nat
  | .next .prose => 0
  | .push (.formula .innerOperator) => n + 1
  | .pop => n - 1
  | _ => n

/-- Going on to any state but free text leaves the stack as it is. -/
theorem Transition.apply_next {s t : State} {stack : List State} (ht : t ≠ .prose) :
    (Transition.next t).apply s stack = (t, stack) := by
  cases t <;> first | rfl | contradiction

/-- Going on inside a formula or a link opens and closes no call. -/
theorem Transition.depth_next {n : Nat} {t : State} (ht : t ≠ .prose) :
    (Transition.next t).depth n = n := by
  cases t <;> first | rfl | contradiction

/-- A marker, a link or a formula that begins is no nested call. -/
theorem Transition.depth_push {n : Nat} {t : State} (ht : t.shape = .based) :
    (Transition.push t).depth n = n := by
  unfold depth
  split <;> simp_all [State.shape]

/-- In a state of free text nothing is on the stack. -/
theorem State.shape_of_isBase {s : State} (h : s.isBase = true) : s.shape = .empty := by
  cases s <;> first | rfl | contradiction

namespace Stacked

variable {n : Nat} {s t : State} {stack : List State}

theorem shape_eq_empty (h : Stacked n s stack) (hs : s.shape = .empty) : n = 0 ∧ stack = [] := by
  cases h <;> simp_all

theorem shape_eq_based (h : Stacked n s stack) (hs : s.shape = .based) : n = 0 ∧ Based stack := by
  cases h <;> simp_all

theorem shape_eq_nested (h : Stacked n s stack) (hs : s.shape = .nested) : Nested n stack := by
  cases h <;> simp_all

/-- A state of the same shape goes with the same stack. -/
theorem of_shape_eq (h : Stacked n s stack) (hst : t.shape = s.shape) : Stacked n t stack := by
  cases h with
  | empty hs => exact .empty (hst.trans hs)
  | based hs h => exact .based (hst.trans hs) h
  | nested hs h => exact .nested (hst.trans hs) h

/-- A marker, a link or a formula remembers a state of free text or the end of a link. -/
theorem push_based (h : Stacked n s stack) (hs : s.isBase = true ∨ s = .link .image)
    (ht : t.shape = .based) : Stacked n t (s :: stack) := by
  rcases hs with hs | rfl
  · obtain ⟨rfl, rfl⟩ := h.shape_eq_empty (State.shape_of_isBase hs)
    exact .based ht (.bottom hs)
  · obtain ⟨rfl, hb⟩ := h.shape_eq_based rfl
    exact .based ht (.link hb)

/-- A nested call remembers the call around it. -/
theorem push_nested (h : Stacked n s stack)
    (hs : s = .formula .arguments ∨ s = .formula .innerArguments) :
    Stacked (n + 1) (.formula .innerOperator) (s :: stack) := by
  rcases hs with rfl | rfl
  · obtain ⟨rfl, hb⟩ := h.shape_eq_based rfl
    exact .nested rfl (.procedure hb)
  · exact .nested rfl (.call (h.shape_eq_nested rfl))

/-- From a nested call the lexer returns to the call around it, which is the procedure when no
other call is open. -/
theorem pop (h : Stacked n (.formula .innerArguments) stack) :
    ∃ t rest, stack = t :: rest ∧ Stacked (n - 1) t rest ∧
      ((n = 1 ∧ t = .formula .arguments) ∨ (2 ≤ n ∧ t = .formula .innerArguments)) := by
  cases h.shape_eq_nested rfl with
  | procedure hb => exact ⟨_, _, rfl, .based rfl hb, .inl ⟨rfl, rfl⟩⟩
  | @call m rest hm =>
    have hpos := hm.pos
    exact ⟨_, _, rfl, .nested rfl hm, .inr ⟨by omega, rfl⟩⟩

/-- Every rule keeps the stack fitting. -/
theorem apply (h : Stacked n s stack) {r : Rule} (hr : r ∈ s.rules) :
    Stacked (r.transition.depth n) (r.transition.apply s stack).1
      (r.transition.apply s stack).2 := by
  have hfits := State.fits_of_mem_rules hr
  cases htr : r.transition with
  | stay => exact h
  | next t =>
    by_cases ht : t = .prose
    · -- whatever was on the stack is forgotten
      subst ht
      exact .empty rfl
    · rw [Transition.apply_next ht, Transition.depth_next ht]
      have hshape : t.shape = s.shape := by simpa [htr, Transition.fits, ht] using hfits
      exact h.of_shape_eq hshape
  | push t =>
    have hpush : ((s.isBase = true ∨ s = .link .image) ∧ t.shape = .based) ∨
        ((s = .formula .arguments ∨ s = .formula .innerArguments) ∧
          t = .formula .innerOperator) := by
      simpa [htr, Transition.fits] using hfits
    -- only a nested call is pushed from inside a call
    rcases hpush with ⟨hs, ht⟩ | ⟨hs, rfl⟩
    · rw [Transition.depth_push ht]
      exact h.push_based hs ht
    · exact h.push_nested hs
  | pop =>
    have hs : s = .formula .innerArguments := by simpa [htr, Transition.fits] using hfits
    subst hs
    obtain ⟨t, rest, rfl, ht, -⟩ := h.pop
    exact ht

end Stacked

/-- After a step the stack goes with the new state. -/
theorem Step.By.stacked {k : Keywords} {c : Cursor} {r : Rule} {s : Step} (h : s.By k c r) {n : Nat}
    (hc : Stacked n c.state c.stack) :
    Stacked (r.transition.depth n) s.after.state s.after.stack := by
  have hgoes := h.goes
  rw [Prod.mk.injEq] at hgoes
  rw [hgoes.1, hgoes.2]
  exact hc.apply h.rule

/-- After a run the stack goes with the state, whatever has been opened by then. -/
theorem Cursor.Run.stacked {k : Keywords} {c d : Cursor} {ss : List Step} {n : Nat}
    (h : Run k c ss d) (hc : Stacked n c.state c.stack) : ∃ m, Stacked m d.state d.stack :=
  h.keeps (P := fun c => ∃ m, Stacked m c.state c.stack) (fun hs ⟨_, hc⟩ => ⟨_, hs.stacked hc⟩)
    ⟨n, hc⟩

/-- In front of each step of a run the stack goes with the state. -/
theorem Cursor.Run.exists_stacked {k : Keywords} {c d : Cursor} {ss : List Step} {n : Nat}
    (h : Run k c ss d) (hc : Stacked n c.state c.stack) :
    ∀ s ∈ ss, ∃ b r m, s.By k b r ∧ Stacked m b.state b.stack := by
  induction h generalizing n with
  | nil => simp
  | cons head _ ih =>
    obtain ⟨r, hr⟩ := exists_rule_of_step? head
    exact List.forall_mem_cons.2 ⟨⟨_, r, n, hr, hc⟩, ih (hr.stacked hc)⟩

-- ---------------------------------------------------------------------------
-- Where rules lead
-- ---------------------------------------------------------------------------

/-- The states that a transition can lead to.  Nested calls return inside a formula. -/
def Transition.targets (s : State) : Transition → List State
  | .stay => [s]
  | .next t | .push t => [t]
  | .pop => [.formula .arguments, .formula .innerArguments]

/-- A step leads where its transition may lead. -/
theorem Step.By.mem_targets {k : Keywords} {c : Cursor} {r : Rule} {s : Step} (h : s.By k c r)
    {n : Nat} (hc : Stacked n c.state c.stack) :
    s.after.state ∈ r.transition.targets c.state := by
  have hgoes : s.after.state = (r.transition.apply c.state c.stack).1 := congrArg Prod.fst h.goes
  have hfits := State.fits_of_mem_rules h.rule
  rw [hgoes]
  cases htr : r.transition with
  | stay => exact List.mem_singleton.2 rfl
  | next t =>
    by_cases ht : t = .prose
    · subst ht
      exact List.mem_singleton.2 rfl
    · rw [Transition.apply_next ht]
      exact List.mem_singleton.2 rfl
  | push t => exact List.mem_singleton.2 rfl
  | pop =>
    -- a call returns to what is on the stack, which the shape knows
    have hs : c.state = .formula .innerArguments := by simpa [htr, Transition.fits] using hfits
    rw [hs] at hc
    obtain ⟨t, rest, hstack, -, ht⟩ := hc.pop
    rw [hstack]
    rcases ht with ⟨-, rfl⟩ | ⟨-, rfl⟩
    · exact List.mem_cons_self
    · exact List.mem_cons_of_mem _ List.mem_cons_self

/-- What the tables say of every state, kind of token, transition and state to go on in holds of
every step. -/
theorem Step.By.relates {Q : State → TokenKind → Transition → State → Prop}
    (table : ∀ s ∈ State.all, ∀ r ∈ s.rules, ∀ kind ∈ r.emit.kinds,
      ∀ t ∈ r.transition.targets s, Q s kind r.transition t)
    {k : Keywords} {c : Cursor} {r : Rule} {s : Step} (h : s.By k c r) {n : Nat}
    (hc : Stacked n c.state c.stack) :
    Q c.state s.token.kind r.transition s.after.state :=
  State.forall_rules table h.rule _ h.kind_mem _ (h.mem_targets hc)

end Jot
