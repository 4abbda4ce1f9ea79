import Mathlib.Data.List.DropRight
import Jot.Proofs.Extent.Formula

/-!
# Jot — open calls and the stack

The stack is only known to the lexer, but the parentheses are there for everyone to count.  Behind
the parenthesis that opens a procedure, as many calls are open as parentheses have been opened and
not closed again, and the stack has one state for each of them.

* `Step.By.counts` — a step moves the stack and the count alike;
* `Cursor.Run.counts` — so they agree behind every run;
* `Cursor.Run.configured` — what is on the stack wherever the lexer can get.
-/

namespace Jot

variable {k : Keywords} {note : Text} {c d : Cursor} {r : Rule} {s : Step} {ss : List Step}
  {n : Nat} {stack : List State}

-- ---------------------------------------------------------------------------
-- Counting parentheses
-- ---------------------------------------------------------------------------

/-- The parenthesis of a procedure. -/
def Step.opensProcedure (s : Step) : Bool :=
  s.before.state = .formula .procedure && s.token.kind = .lparen

/-- The steps behind the parenthesis of the procedure that was opened last. -/
def insideProcedure (ss : List Step) : List Step := ss.rtakeWhile fun s => !s.opensProcedure

def callsOpened (ss : List Step) : Nat :=
  (insideProcedure ss).countP fun s => s.token.kind = .lparen

def callsClosed (ss : List Step) : Nat :=
  (insideProcedure ss).countP fun s => s.token.kind = .rparen

/-- Behind the parenthesis of a procedure the count begins anew. -/
theorem insideProcedure_concat_of_opens (h : s.opensProcedure = true) :
    insideProcedure (ss ++ [s]) = [] :=
  List.rtakeWhile_concat_neg _ _ _ (by simp [h])

theorem insideProcedure_concat (h : s.before.state ≠ .formula .procedure) :
    insideProcedure (ss ++ [s]) = insideProcedure ss ++ [s] :=
  List.rtakeWhile_concat_pos _ _ _ (by simp [Step.opensProcedure, h])

/-- A step opens a call if it reads an opening parenthesis. -/
theorem callsOpened_concat (h : s.before.state ≠ .formula .procedure) :
    callsOpened (ss ++ [s]) = callsOpened ss + if s.token.kind = .lparen then 1 else 0 := by
  rw [callsOpened, insideProcedure_concat h, List.countP_append]
  simp [callsOpened, List.countP_cons]

theorem callsClosed_concat (h : s.before.state ≠ .formula .procedure) :
    callsClosed (ss ++ [s]) = callsClosed ss + if s.token.kind = .rparen then 1 else 0 := by
  rw [callsClosed, insideProcedure_concat h, List.countP_append]
  simp [callsClosed, List.countP_cons]

-- ---------------------------------------------------------------------------
-- The count and the stack
-- ---------------------------------------------------------------------------

/-- The stack goes with the state, and in a call it has a state for each call that is open. -/
def Counts (ss : List Step) (c : Cursor) : Prop :=
  ∃ n, Stacked n c.state c.stack ∧
    (c.state.isCall = true → callsOpened ss = callsClosed ss + n)

/-- Calls are entered through the parenthesis of a procedure only. -/
theorem Step.By.opensProcedure (h : s.By k c r) (hc : Stacked n c.state c.stack)
    (hbefore : c.state.isCall = false) (hafter : s.after.state.isCall = true) :
    s.opensProcedure = true ∧ s.after.state.shape = .based := by
  obtain ⟨hs, hk, hshape⟩ := h.relates
    (Q := fun s kind _ t => s.isCall = false → t.isCall = true →
      s = .formula .procedure ∧ kind = .lparen ∧ t.shape = .based)
    (by decide) hc hbefore hafter
  exact ⟨by simp [Step.opensProcedure, h.before, hs, hk], hshape⟩

theorem State.isCall_of_shape {s : State} (h : s.shape = .nested) : s.isCall = true := by
  cases s with
  | formula s => cases s <;> first | rfl | contradiction
  | _ => contradiction

/-- A step moves the stack and the count alike. -/
theorem Step.By.counts (h : s.By k c r) (hc : Counts ss c) : Counts (ss ++ [s]) s.after := by
  obtain ⟨n, hstack, hcount⟩ := hc
  have hafter := h.stacked hstack
  cases hcall : c.state.isCall with
  | false =>
    refine ⟨_, hafter, fun ht => ?_⟩
    -- a call that is entered from outside is the procedure, and nothing is counted in it yet
    obtain ⟨hopens, hshape⟩ := h.opensProcedure hstack hcall ht
    have hzero := (hafter.shape_eq_based hshape).1
    rw [hzero, callsOpened, callsClosed, insideProcedure_concat_of_opens hopens]
    rfl
  | true =>
    have hne : s.before.state ≠ .formula .procedure := by
      intro hs
      rw [← h.before, hs] at hcall
      contradiction
    have heq := hcount hcall
    have hopened : callsOpened (ss ++ [s]) = _ := callsOpened_concat hne
    have hclosed : callsClosed (ss ++ [s]) = _ := callsClosed_concat hne
    -- in a call, the stack and the count move with the parenthesis, if one is read
    cases h.callMove hstack hcall with
    | opens hk _ hstack =>
      refine ⟨n + 1, hstack, fun _ => ?_⟩
      simp only [hk, reduceCtorEq, if_true, if_false] at hopened hclosed
      omega
    | within hk _ hstack =>
      refine ⟨n, hstack, fun _ => ?_⟩
      rcases hk with hk | hk | hk
      all_goals
        simp only [hk, reduceCtorEq, if_false] at hopened hclosed
        omega
    | returns hk _ hpos hstack =>
      refine ⟨n - 1, hstack, fun _ => ?_⟩
      simp only [hk, reduceCtorEq, if_true, if_false] at hopened hclosed
      omega
    | closes _ _ hprose | fails _ hprose =>
      refine ⟨_, hafter, fun ht => ?_⟩
      exact absurd hprose (State.ne_prose_of_isCall ht)

/-- Count and stack agree behind every run. -/
theorem Cursor.Run.counts (h : Run k c ss d) (hc : Counts [] c) : Counts ss d := by
  -- by induction on the end of the run, since the count looks back from there
  induction ss using List.reverseRecOn generalizing d with
  | nil =>
    cases h
    exact hc
  | append_singleton ss s ih =>
    obtain ⟨b, r, hss, hr, rfl⟩ := h.exists_last
    exact hr.counts (ih hss)

-- ---------------------------------------------------------------------------
-- Whole stacks
-- ---------------------------------------------------------------------------

/-- The state that a note goes on in, below one state for each link in a chain. -/
def State.chain (base : State) (links : Nat) : List State :=
  List.replicate links (.link .image) ++ [base]

/-- A stack without calls is a chain of links above a state of free text. -/
theorem Based.exists_chain (h : Based stack) :
    ∃ base links, base.isBase = true ∧ stack = State.chain base links := by
  induction h with
  | @bottom s hs => exact ⟨s, 0, hs, rfl⟩
  | link _ ih =>
    obtain ⟨base, links, hbase, rfl⟩ := ih
    exact ⟨base, links + 1, hbase, rfl⟩

/-- In a nested call the calls around it stand above such a chain, the procedure undermost. -/
theorem Nested.exists_chain (h : Nested n stack) :
    ∃ base links, base.isBase = true ∧ stack =
      List.replicate (n - 1) (.formula .innerArguments) ++
        .formula .arguments :: State.chain base links := by
  induction h with
  | procedure hb =>
    obtain ⟨base, links, hbase, rfl⟩ := hb.exists_chain
    exact ⟨base, links, hbase, rfl⟩
  | @call n stack hm ih =>
    obtain ⟨base, links, hbase, rfl⟩ := ih
    refine ⟨base, links, hbase, ?_⟩
    obtain ⟨m, rfl⟩ : ∃ m, n = m + 1 := ⟨n - 1, by have := hm.pos; omega⟩
    rfl

/-- The transition that a step was chosen by is that of its rule. -/
theorem Cursor.exists_rule_transition (h : c.step? k = some s) :
    ∃ r, s.By k c r ∧ r.transition = s.choice.transition := by
  obtain ⟨r, hr, n, hn, hchoose⟩ := c.state.exists_rule_choose (rest_ne_nil_of_step? h)
  refine ⟨r, by_of_choose h hr hn hchoose, ?_⟩
  rw [choice_of_step? h, hchoose]

/-- What is on the stack of the lexer behind the steps `ss` of a note. -/
structure Configured (k : Keywords) (ss : List Step) (c : Cursor) : Prop where
  /-- Outside of all constructs there is nothing on the stack. -/
  empty  : c.state.shape = .empty → c.stack = []
  based  : c.state.shape = .based →
    ∃ base links, base.isBase = true ∧ c.stack = State.chain base links
  /-- In a nested call the stack has a state for each call that is open in the procedure. -/
  nested : c.state.shape = .nested →
    ∃ base links n, base.isBase = true ∧ 1 ≤ n ∧ callsOpened ss = callsClosed ss + n ∧
      c.stack = List.replicate (n - 1) (.formula .innerArguments) ++
        .formula .arguments :: State.chain base links
  /-- Among arguments, these are the procedure's own when all nested calls are closed. -/
  back   : c.state = .formula .arguments ∨ c.state.shape = .nested →
    (c.state = .formula .arguments ↔ callsOpened ss = callsClosed ss)
  /-- There is always a state to return to, and it is one among arguments. -/
  pop    : ∀ s, c.step? k = some s → s.choice.transition = .pop →
    ∃ t rest, c.stack = t :: rest ∧ s.after.state = t ∧ s.after.stack = rest ∧
      (t = .formula .arguments ∨ t = .formula .innerArguments) ∧
      (t = .formula .arguments ↔ callsOpened (ss ++ [s]) = callsClosed (ss ++ [s]))

/-- All nested calls are closed if and only if the lexer is among the arguments of the procedure. -/
theorem Counts.back (h : Counts ss c)
    (hs : c.state = .formula .arguments ∨ c.state.shape = .nested) :
    c.state = .formula .arguments ↔ callsOpened ss = callsClosed ss := by
  obtain ⟨n, hstack, hcount⟩ := h
  constructor
  · intro hs
    have hzero := (hstack.shape_eq_based (by rw [hs]; rfl)).1
    have heq := hcount (by rw [hs]; rfl)
    omega
  · intro hclosed
    rcases hs with hs | hs
    · exact hs
    · have hpos := (hstack.shape_eq_nested hs).pos
      have heq := hcount (State.isCall_of_shape hs)
      omega

/-- **The stack of the lexer** is known from the state and from the parentheses, wherever in a note
the lexer can get. -/
theorem Cursor.Run.configured (h : Run k (start note) ss c) : Configured k ss c := by
  have hstart : Counts [] (start note) := ⟨0, .empty rfl, fun h => nomatch h⟩
  obtain ⟨n, hstack, hcount⟩ := h.counts hstart
  have hcounts : Counts ss c := ⟨n, hstack, hcount⟩
  refine {
    empty  := fun hs => (hstack.shape_eq_empty hs).2
    based  := fun hs => (hstack.shape_eq_based hs).2.exists_chain
    nested := ?_
    back   := hcounts.back
    pop    := ?_ }
  · intro hs
    have hnested := hstack.shape_eq_nested hs
    obtain ⟨base, links, hbase, hchain⟩ := hnested.exists_chain
    exact ⟨base, links, n, hbase, hnested.pos, hcount (State.isCall_of_shape hs), hchain⟩
  · intro s hstep htr
    obtain ⟨r, hr, hpop⟩ := exists_rule_transition hstep
    rw [htr] at hpop
    -- only the arguments of a nested call are left by going back
    have hs : c.state = .formula .innerArguments := by
      simpa [hpop, Transition.fits] using State.fits_of_mem_rules hr.rule
    rw [hs] at hstack
    obtain ⟨t, rest, hrest, -, ht⟩ := hstack.pop
    have hgoes := hr.goes
    rw [hpop, hrest, Prod.mk.injEq] at hgoes
    obtain ⟨hstate, htail⟩ := hgoes
    have hargs : t = .formula .arguments ∨ t = .formula .innerArguments := by
      rcases ht with ⟨-, ht⟩ | ⟨-, ht⟩
      · exact .inl ht
      · exact .inr ht
    have hback := (hr.counts hcounts).back (by
      rw [hstate]
      exact hargs.imp id fun ht => by rw [ht]; rfl)
    rw [hstate] at hback
    exact ⟨t, rest, hrest, hstate, htail, hargs, hback⟩

/-- A run ends behind its last step. -/
theorem Cursor.Run.eq_getLast (h : Run k c ss d) : d = (ss.getLast?.map Step.after).getD c := by
  induction h with
  | nil => rfl
  | @cons _ _ s ss head tail ih =>
    rw [List.getLast?_cons, ih]
    cases ss.getLast? <;> rfl

/-- Behind a link, in a call that is nested in another one. -/
theorem configured_behind_link :
    let note := "://(\"a\")$$()(+ (- (* 1".toList
    let ss := steps Keywords.standard note
    ∃ c, Cursor.Run Keywords.standard (Cursor.start note) ss c ∧
      Configured Keywords.standard ss c ∧ callsOpened ss = 2 ∧ callsClosed ss = 0 ∧
      c.state = .formula .innerArguments ∧
      c.stack = [.formula .innerArguments, .formula .arguments, .link .image, .start] := by
  intro note ss
  obtain ⟨c, hrun, -⟩ := Cursor.run_steps Keywords.standard note
  refine ⟨c, hrun, hrun.configured, by decide +kernel, by decide +kernel, ?_⟩
  rw [hrun.eq_getLast]
  decide +kernel

end Jot
