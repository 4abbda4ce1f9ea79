import Jot.Proofs.Call.Spine
import Jot.Proofs.Extent.Formula
import Jot.Proofs.Interruption.Token
import Jot.Proofs.Spans

/-!
# Jot — the order inside calls

The reader of calls takes operators, arguments and parentheses as they come: nothing in it keeps a
call from having arguments without an operator, or from being closed before it has one.  It is the
lexer that reads an operator first, in a state of its own, and it does so at every depth.
`Call.Orderly` is the grammar of the levels that the lexer can write; what it says about a call no
longer needs the lexer.

* `Call.Level.orderly` — every level along a run of the lexer is orderly, and behind a closed one
  the lexer goes on in the call around it;
* `Call.Orderly.head_cases` — a call has an operator, or the reader got no further than its spaces;
* `Call.Orderly.everywhere` — what holds of all orderly calls holds at every depth.
-/

namespace Jot

-- ---------------------------------------------------------------------------
-- Operators
-- ---------------------------------------------------------------------------

/-- The texts that can be an operator. -/
structure Text.IsOperator (op : Text) : Prop where
  nonempty : 1 ≤ op.length
  short    : op.length ≤ 42
  plain    : ∀ c ∈ op, Jot.isBlank c = false ∧ c ≠ '(' ∧ c ≠ ')'

/-- A text that the pattern for operators takes whole can be an operator. -/
theorem Pattern.isOperator_of_take? {t : Text} (h : Pattern.operator.take? t = some t.length) :
    t.IsOperator := by
  obtain ⟨hread, hpos⟩ := take?_eq_some_iff.1 h
  obtain ⟨c, u, rfl⟩ := List.exists_cons_of_length_pos hpos
  have hread : (if Recognizer.isOperatorChar c then some 1 else none).bind (fun n =>
      (Recognizer.upTo Recognizer.operatorTailLimit Recognizer.isOperatorChar
        ((c :: u).drop n)).map (n + ·)) = some (c :: u).length := hread
  have hc : Recognizer.isOperatorChar c = true := by
    refine Bool.not_eq_false _ ▸ fun hc => ?_
    rw [hc] at hread
    contradiction
  rw [if_pos hc, Option.bind_some, List.drop_one, List.tail_cons] at hread
  obtain ⟨n, hn, hlen⟩ := Option.map_eq_some_iff.1 hread
  rw [List.length_cons] at hlen
  obtain rfl : n = u.length := by omega
  obtain ⟨hshort, hu⟩ := Recognizer.upTo_eq_length_iff.1 hn
  refine ⟨hpos, Nat.succ_le_succ hshort, ?_⟩
  intro x hx
  have hchar : Recognizer.isOperatorChar x = true := by
    rcases List.mem_cons.1 hx with rfl | hx
    · exact hc
    · exact hu x hx
  simpa [Recognizer.isOperatorChar, and_assoc] using hchar

variable {k : Keywords} {b d : Cursor} {r : Rule} {s : Step} {ss : List Step} {n : Nat}

/-- The value of an operator token is its text. -/
theorem Step.By.isOperator (h : s.By k b r) (hk : s.token.kind = .operator) :
    ∃ op, s.token.value.asText = some op ∧ op.IsOperator := by
  have hpattern : r.pattern = .operator := h.pattern_of_kind (by rw [hk]; rfl)
  have htake := h.take_text (by rw [hpattern]; nofun)
  rw [hpattern] at htake
  have hvalue := h.decoded.value_of_isLexed (by rw [hk]; rfl)
  rw [hk] at hvalue
  exact ⟨s.token.text, by rw [hvalue]; rfl, Pattern.isOperator_of_take? htake⟩

-- ---------------------------------------------------------------------------
-- The two parts of a call
-- ---------------------------------------------------------------------------

/-- The parts of a call behind its opening parenthesis. -/
inductive Call.Phase where
  /-- Before the operator. -/
  | operator
  /-- Behind it. -/
  | arguments
deriving DecidableEq

open Call (Phase)

/-- The part of a call in which a state reads. -/
def State.phase? : State → Option Phase
  | formula .operator | formula .innerOperator => some .operator
  | formula .arguments | formula .innerArguments => some .arguments
  | _ => none

theorem State.isCall_of_phase? {s : State} {p : Phase} (h : s.phase? = some p) :
    s.isCall = true := by
  unfold phase? at h
  split at h <;> first | rfl | contradiction

/-- The part in which reading goes on behind a token that a part of a call admits. -/
def Call.Phase.next? : Phase → TokenKind → Option Phase
  | p, .space => some p
  | operator, .operator => some arguments
  | arguments, .arg => some arguments
  | arguments, .lparen => some operator
  | arguments, .rparen => some arguments
  | _, _ => none

/-- In a call the lexer reads what the part admits, or an error. -/
theorem Step.By.phase_next (h : s.By k b r) (hb : Stacked n b.state b.stack) {p : Phase}
    (hp : b.state.phase? = some p) : s.token.kind = .error ∨ ∃ q, p.next? s.token.kind = some q ∧
      (s.after.state.isCall = true → s.after.state.phase? = some q) := by
  have htable := h.relates
    (Q := fun s kind _ t => ∀ p ∈ s.phase?, kind = .error ∨
      (p.next? kind).isSome = true ∧ (t.isCall = true → t.phase? = p.next? kind))
    (by decide) hb p hp
  refine htable.imp id fun ⟨hsome, hgo⟩ => ?_
  obtain ⟨q, hq⟩ := Option.isSome_iff_exists.1 hsome
  exact ⟨q, hq, fun hcall => (hgo hcall).trans hq⟩

/-- What a step can do in one part of a call while `n` calls are open around it. -/
inductive PhaseMove (n : Nat) (s : Step) : Phase → Prop where
  | space {p : Phase} (hk : s.token.kind = .space) (hp : s.after.state.phase? = some p)
      (h : Stacked n s.after.state s.after.stack) : PhaseMove n s p
  | operator (hk : s.token.kind = .operator) (hp : s.after.state.phase? = some .arguments)
      (h : Stacked n s.after.state s.after.stack) : PhaseMove n s .operator
  | arg (hk : s.token.kind = .arg) (hp : s.after.state.phase? = some .arguments)
      (h : Stacked n s.after.state s.after.stack) : PhaseMove n s .arguments
  | opens (hk : s.token.kind = .lparen) (hp : s.after.state.phase? = some .operator)
      (h : Stacked (n + 1) s.after.state s.after.stack) : PhaseMove n s .arguments
  | closes (hk : s.token.kind = .rparen)
      (h : 0 < n → Stacked (n - 1) s.after.state s.after.stack ∧
        s.after.state.phase? = some .arguments) : PhaseMove n s .arguments
  | fails {p : Phase} (hk : s.token.kind = .error) : PhaseMove n s p

/-- Every step in a part of a call does one of these things. -/
theorem Step.By.phaseMove (h : s.By k b r) (hb : Stacked n b.state b.stack) {p : Phase}
    (hp : b.state.phase? = some p) : PhaseMove n s p := by
  have hmove := h.callMove hb (State.isCall_of_phase? hp)
  rcases h.phase_next hb hp with hk | ⟨q, hq, hgo⟩
  · exact .fails hk
  · -- the moves in calls at large, less those that the part does not admit
    cases hmove with
    | opens hk hcall hstack =>
      rw [hk] at hq
      cases p with
      | operator => contradiction
      | arguments => exact .opens hk ((hgo hcall).trans hq.symm) hstack
    | within hk hcall hstack =>
      rcases hk with hk | hk | hk <;> rw [hk] at hq
      · cases p with
        | operator => exact .operator hk ((hgo hcall).trans hq.symm) hstack
        | arguments => contradiction
      · cases p with
        | operator => contradiction
        | arguments => exact .arg hk ((hgo hcall).trans hq.symm) hstack
      · exact .space hk ((hgo hcall).trans hq.symm) hstack
    | returns hk hcall _ hstack =>
      rw [hk] at hq
      cases p with
      | operator => contradiction
      | arguments => exact .closes hk fun _ => ⟨hstack, (hgo hcall).trans hq.symm⟩
    | closes hk hn _ =>
      rw [hk] at hq
      cases p with
      | operator => contradiction
      | arguments => exact .closes hk fun hpos => absurd hn (Nat.ne_of_gt hpos)
    | fails hk => exact .fails hk

namespace Call

-- ---------------------------------------------------------------------------
-- Orderly levels
-- ---------------------------------------------------------------------------

/-- Levels, as `Level` has them, whose tokens come in order: spaces and one operator, and only then
arguments, nested calls and the closing parenthesis.  The phase is where the level begins. -/
inductive Orderly : Phase → Frame → List Token → List Token → Call → Ending → Prop
  | stop (p : Phase) (f : Frame) : Orderly p f [] [] (f.finish .sound) (.cut none)
  | error (p : Phase) (f : Frame) {t : Token} (rest : List Token) (h : t.kind = .error) :
      Orderly p f [t] rest ((f.absorb t.toPiece).finish (.broken t.violation)) (.cut (some t))
  | close (f : Frame) {t : Token} (rest : List Token) (h : t.kind = .rparen) :
      Orderly .arguments f [t] rest ((f.absorb t.toPiece).finish .sound) .closed
  | space {p : Phase} {f : Frame} {t : Token} {taken rest : List Token} {c : Call} {e : Ending}
      (h : t.kind = .space) (tail : Orderly p (f.add t) taken rest c e) :
      Orderly p f (t :: taken) rest c e
  | operator {f : Frame} {t : Token} {taken rest : List Token} {c : Call} {e : Ending}
      (h : t.kind = .operator) (hop : ∃ op, t.value.asText = some op ∧ op.IsOperator)
      (tail : Orderly .arguments (f.add t) taken rest c e) :
      Orderly .operator f (t :: taken) rest c e
  | arg {f : Frame} {t : Token} {taken rest : List Token} {c : Call} {e : Ending}
      (h : t.kind = .arg) (tail : Orderly .arguments (f.add t) taken rest c e) :
      Orderly .arguments f (t :: taken) rest c e
  | call {f : Frame} {t : Token} {inner taken rest : List Token} {d c : Call} {e : Ending}
      (h : t.kind = .lparen)
      (inside : Orderly .operator (Frame.enter t) inner (taken ++ rest) d .closed)
      (tail : Orderly .arguments (f.receive d) taken rest c e) :
      Orderly .arguments f (t :: (inner ++ taken)) rest c e
  | cut {f : Frame} {t : Token} {inner rest : List Token} {d : Call} {e : Option Token}
      (h : t.kind = .lparen) (inside : Orderly .operator (Frame.enter t) inner rest d (.cut e)) :
      Orderly .arguments f (t :: inner) rest ((f.receive d).finish (.ofError e)) (.cut e)

variable {p : Phase} {f : Frame} {t : Token} {taken rest tokens : List Token} {c : Call}
  {e : Ending}

/-- An orderly level is a level. -/
theorem Orderly.level (h : Orderly p f taken rest c e) : Level f taken rest c e := by
  induction h with
  | stop p f => exact .stop f
  | error p f rest hk => exact .error f rest hk
  | close f rest hk => exact .close f rest hk
  | space hk _ ih | operator hk _ _ ih | arg hk _ ih => exact .token (by rw [hk]; rfl) ih
  | call hk _ _ ihinside ihtail => exact .call hk ihinside ihtail
  | cut hk _ ih => exact .cut hk ih

/-- Behind a call that is closed, the lexer goes on with the tokens `rest`: among the arguments of
the call around it, if there is one. -/
def Resumes (k : Keywords) (n : Nat) (rest : List Token) : Prop :=
  ∃ b ss d, Cursor.Run k b ss d ∧ ss.map Step.token = rest ∧
    (0 < n → Stacked (n - 1) b.state b.stack ∧ b.state.phase? = some .arguments)

/-- **Levels along a run of the lexer are orderly.**  The lexer keeps on its stack that each of the
calls around the innermost one is behind its operator. -/
theorem Level.orderly (h : Level f taken rest c e) (hrun : Cursor.Run k b ss d)
    (hss : ss.map Step.token = taken ++ rest) (hb : Stacked n b.state b.stack)
    (hp : b.state.phase? = some p) :
    Orderly p f taken rest c e ∧ (e = .closed → Resumes k n rest) := by
  induction h generalizing b d ss n p with
  | stop f => exact ⟨.stop p f, nofun⟩
  | error f rest hk => exact ⟨.error p f rest hk, nofun⟩
  -- the lexer reads no such token in a call
  | foreign f rest hk =>
    obtain ⟨s, later, rfl, rfl, -⟩ := List.map_eq_cons_iff.1 hss
    obtain ⟨r, hr, -⟩ := hrun.uncons
    cases hr.phaseMove hb hp with
    | space h | operator h | arg h | opens h | closes h | fails h => rw [h] at hk; contradiction
  | close f rest hk =>
    obtain ⟨s, later, rfl, rfl, hlater⟩ := List.map_eq_cons_iff.1 hss
    obtain ⟨r, hr, tail⟩ := hrun.uncons
    cases hr.phaseMove hb hp with
    | closes _ hback => exact ⟨.close f rest hk, fun _ => ⟨_, _, _, tail, hlater, hback⟩⟩
    | space h | operator h | arg h | opens h | fails h => rw [h] at hk; contradiction
  | @token f t taken rest c e hk _ ih =>
    obtain ⟨s, later, rfl, rfl, hlater⟩ := List.map_eq_cons_iff.1 hss
    obtain ⟨r, hr, tail⟩ := hrun.uncons
    cases hr.phaseMove hb hp with
    | space h hnext hstack =>
      obtain ⟨horderly, hback⟩ := ih tail hlater hstack hnext
      exact ⟨.space h horderly, hback⟩
    | operator h hnext hstack =>
      obtain ⟨horderly, hback⟩ := ih tail hlater hstack hnext
      exact ⟨.operator h (hr.isOperator h) horderly, hback⟩
    | arg h hnext hstack =>
      obtain ⟨horderly, hback⟩ := ih tail hlater hstack hnext
      exact ⟨.arg h horderly, hback⟩
    | opens h | closes h | fails h => rw [h] at hk; contradiction
  | @call f t inner taken rest d c e hk _ _ ihinside ihtail =>
    rw [List.cons_append, List.append_assoc] at hss
    obtain ⟨s, later, rfl, rfl, hlater⟩ := List.map_eq_cons_iff.1 hss
    obtain ⟨r, hr, tail⟩ := hrun.uncons
    cases hr.phaseMove hb hp with
    | opens _ hnext hstack =>
      obtain ⟨hinside, hback⟩ := ihinside tail hlater hstack hnext
      -- the nested call has given back the state that was remembered for it
      obtain ⟨b', ss', d', hrun', hss', hthere⟩ := hback rfl
      obtain ⟨hstack', hp'⟩ := hthere (Nat.succ_pos n)
      obtain ⟨htail, hback'⟩ := ihtail hrun' hss' hstack' hp'
      exact ⟨.call hk hinside htail, hback'⟩
    | space h | operator h | arg h | closes h | fails h => rw [h] at hk; contradiction
  | @cut f t inner rest d e hk _ ih =>
    obtain ⟨s, later, rfl, rfl, hlater⟩ := List.map_eq_cons_iff.1 hss
    obtain ⟨r, hr, tail⟩ := hrun.uncons
    cases hr.phaseMove hb hp with
    | opens _ hnext hstack => exact ⟨.cut hk (ih tail hlater hstack hnext).1, nofun⟩
    | space h | operator h | arg h | closes h | fails h => rw [h] at hk; contradiction

-- ---------------------------------------------------------------------------
-- What a call has
-- ---------------------------------------------------------------------------

/-- A level makes a call sound unless an error has ended it. -/
theorem Level.status (h : Level f taken rest c e) : c.status = .ofError e.error := by
  induction h with
  | stop f | foreign f rest hk | error f rest hk | close f rest hk => rfl
  | token hk _ ih => exact ih
  | call hk _ _ _ ihtail => exact ihtail
  | cut hk _ ih => rfl

/-- The first operator of a call stays. -/
theorem Level.operator_of_some (h : Level f taken rest c e) {op : Text}
    (hf : f.operator = some op) : c.operator = some op := by
  induction h with
  | stop f | foreign f rest hk | error f rest hk | close f rest hk => exact hf
  | @token f t taken rest c e hk _ ih => exact ih (by rw [f.operator_add, hf]; rfl)
  | call hk _ _ _ ihtail => exact ihtail hf
  | cut hk _ ih => exact hf

/-- Some tokens close as many parentheses as they open. -/
def Closes (ts : List Token) : Prop :=
  ts.countP (·.kind = .rparen) = ts.countP (·.kind = .lparen)

/-- What is taken of a call that is cut has no more closing parentheses than opening ones. -/
theorem Level.countP_le_of_cut {error : Option Token} (h : Level f taken rest c (.cut error)) :
    taken.countP (·.kind = .rparen) ≤ taken.countP (·.kind = .lparen) := by
  generalize he : Ending.cut error = e at h
  induction h with
  | stop f | foreign f rest hk => exact Nat.le_refl _
  | error f rest hk => simp [hk]
  | close f rest hk => contradiction
  | token hk _ ih => simpa [TokenKind.ne_of_isLevel hk] using ih he
  | call hk hinside _ _ ihtail =>
    rw [List.countP_cons, List.countP_cons, List.countP_append, List.countP_append,
      hinside.countP_of_closed]
    have hle := ihtail he
    simp only [hk, decide_true, if_true]
    simp
    omega
  | cut hk _ ih =>
    cases he
    simpa [hk] using Nat.le_succ_of_le (ih rfl)

/-- A call is closed when it has taken as many closing parentheses as opening ones. -/
theorem Level.closes_iff (hk : t.kind = .lparen) (h : Level f taken rest c e) :
    Closes (t :: taken) ↔ e = .closed := by
  have hcount : Closes (t :: taken) ↔
      taken.countP (·.kind = .rparen) = taken.countP (·.kind = .lparen) + 1 := by
    simp [Closes, hk]
  rw [hcount]
  cases e with
  | closed => simpa using h.countP_of_closed
  | cut error =>
    have hle := h.countP_le_of_cut
    simp only [reduceCtorEq, iff_false]
    omega

namespace Orderly

/-- A call that is cut without an error has taken all tokens. -/
theorem rest_eq_nil (h : Orderly p f taken rest c (.cut none)) : rest = [] := by
  generalize he : Ending.cut none = e at h
  induction h with
  | stop p f => rfl
  | error p f rest hk => cases he
  | close f rest hk => cases he
  | space hk _ ih | operator hk _ _ ih | arg hk _ ih => exact ih he
  | call hk _ _ _ ihtail => exact ihtail he
  | cut hk _ ih => exact ih he

/-- What is read of a call that has no operator: spaces, up to an error token or to the end. -/
structure Headless (taken rest : List Token) (error : Option Token) : Prop where
  spaces : ∃ spaces, (∀ x ∈ spaces, x.kind = .space) ∧ taken = spaces ++ error.toList
  ended  : error = none → rest = []

/-- A call has an operator, or what is read of it is neither closed nor more than its spaces. -/
theorem head_cases (h : Orderly .operator f taken rest c e) (hf : f.operator = none) :
    (∃ op, c.operator = some op ∧ op.IsOperator) ∨
      c.operator = none ∧ c.args = f.args.reverse ∧
        ∃ error, e = .cut error ∧ Headless taken rest error := by
  generalize hp : Phase.operator = p at h
  induction h with
  | stop p f => exact .inr ⟨hf, rfl, none, rfl, ⟨[], by simp, rfl⟩, fun _ => rfl⟩
  | @error p f t rest hk => exact .inr ⟨hf, rfl, some t, rfl, ⟨[], by simp, rfl⟩, nofun⟩
  | @space p f t taken rest c e hk _ ih =>
    have hadd : (f.add t).operator = none := by rw [f.operator_add, hf, hk]; rfl
    have hargs : (f.add t).args = f.args := by rw [f.args_add, hk]; rfl
    rcases ih hadd hp with hop | ⟨hnone, hc, error, rfl, ⟨spaces, hspaces, rfl⟩, hend⟩
    · exact .inl hop
    · refine .inr ⟨hnone, by rw [hc, hargs], error, rfl, ⟨t :: spaces, ?_, rfl⟩, hend⟩
      exact List.forall_mem_cons.2 ⟨hk, hspaces⟩
  | @operator f t taken rest c e hk hop tail _ =>
    obtain ⟨op, hvalue, hlegal⟩ := hop
    have hadd : (f.add t).operator = some op := by
      rw [f.operator_add, hf, if_pos hk, hvalue]
      rfl
    exact .inl ⟨op, tail.level.operator_of_some hadd, hlegal⟩
  -- these levels begin behind the operator
  | close | arg | call | cut => contradiction

end Orderly

-- ---------------------------------------------------------------------------
-- Every depth
-- ---------------------------------------------------------------------------

/-- Something holds of a call and of all calls inside it. -/
inductive Everywhere (P : Call → Prop) : Call → Prop
  | intro {c : Call} (here : P c) (inner : ∀ d ∈ c.inner, Everywhere P d) : Everywhere P c

/-- What holds throughout the calls in a frame holds throughout those in the call it becomes. -/
theorem everywhere_finish {P : Call → Prop}
    (hf : ∀ d ∈ f.args.filterMap Arg.call?, d.Everywhere P) (status : CallStatus) :
    ∀ d ∈ (f.finish status).inner, d.Everywhere P := by
  rw [inner_finish]
  exact fun d hd => hf d (List.mem_reverse.1 hd)

/-- Where something holds of every call that is read at one of the parentheses, and for the calls
in a closed one only of closed ones, it holds of all calls inside. -/
theorem Orderly.everywhere {P : Call → Prop} (h : Orderly p f taken rest c e)
    (hP : ∀ {t inner behind d e'}, t.kind = .lparen → t :: (inner ++ behind) <:+ taken ++ rest →
      Orderly .operator (Frame.enter t) inner behind d e' → (e = .closed → e' = .closed) → P d)
    (hf : ∀ d ∈ f.args.filterMap Arg.call?, d.Everywhere P) : ∀ d ∈ c.inner, d.Everywhere P := by
  induction h with
  | stop p f => exact everywhere_finish hf _
  | error p f rest hk | close f rest hk => exact everywhere_finish (f := f.absorb _) hf _
  | @space p f t taken rest c e hk _ ih | @operator f t taken rest c e hk _ _ ih
  | @arg f t taken rest c e hk _ ih =>
    refine ih (fun hk hsuffix => hP hk (hsuffix.trans (List.suffix_cons _ _))) ?_
    rw [call?_args_add]
    exact hf
  | @call f t inner taken rest d c e hk inside _ ihinside ihtail =>
    have hsplit : t :: (inner ++ taken) ++ rest = t :: (inner ++ (taken ++ rest)) := by simp
    rw [hsplit] at hP
    have hd : d.Everywhere P := by
      refine .intro (hP hk (List.suffix_refl _) inside fun _ => rfl) ?_
      refine ihinside (fun hk hsuffix hx hclosed => ?_) nofun
      exact hP hk (hsuffix.trans (List.suffix_cons _ _)) hx fun _ => hclosed rfl
    refine ihtail (fun hk hsuffix => hP hk (hsuffix.trans ?_)) ?_
    · exact ⟨t :: inner, rfl⟩
    · exact List.forall_mem_cons.2 ⟨hd, hf⟩
  | @cut f t inner rest d e hk inside ih =>
    have hd : d.Everywhere P := by
      refine .intro (hP hk (List.suffix_refl _) inside nofun) ?_
      refine ih (fun hk hsuffix hx hclosed => ?_) nofun
      exact hP hk (hsuffix.trans (List.suffix_cons _ _)) hx hclosed
    exact everywhere_finish (f := f.receive d) (List.forall_mem_cons.2 ⟨hd, hf⟩) _

end Call

end Jot
