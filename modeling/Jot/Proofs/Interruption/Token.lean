import Mathlib.Data.List.TakeWhile
import Jot.Proofs.Agreement
import Jot.Proofs.Delimiter
import Jot.Proofs.Truncation

/-!
# Jot — tokens of formulas that are cut

The cut may fall inside of a token.  White space, operators and bare labels are read as such however
little is left of them, and a parenthesis cannot be cut.  Of a quoted name nothing can be read
without the closing quote.  A number may leave something behind its front: of `1.5e3` the cut leaves
`1.5` and `e`, which are two arguments, and of `1.5` it leaves `1` and a point, which is none.

* `Pattern.take?_left`, `Pattern.argument_cut` — what patterns take of what is left of a token;
* `Steady`, `Hinges` — steps that go on in a formula without error, and what that depends on;
* `Cursor.reads_arguments` — the lexer on arguments without anything between them;
* `Cursor.step_cut` — the lexer on what is left of a token.
-/

namespace Jot

variable {k : Keywords} {c : Cursor} {r : Rule} {s : Step} {ss : List Step} {n : Nat}
  {left right : Text}

-- ---------------------------------------------------------------------------
-- What is left of a token
-- ---------------------------------------------------------------------------

namespace Recognizer

variable {p q : Char → Bool} {t : Text}

/-- Where one character is asked for, one is taken. -/
theorem eq_one_of_one (h : one p t = some n) : n = 1 := by
  cases t with
  | nil => contradiction
  | cons c t =>
    rw [one] at h
    split at h
    · exact (Option.some_inj.1 h).symm
    · contradiction

theorem length_takeWhile_eq_iff :
    (t.takeWhile p).length = t.length ↔ ∀ c ∈ t, p c = true := by
  rw [← List.takeWhile_eq_self_iff]
  exact ⟨(List.takeWhile_prefix p).eq_of_length, congrArg List.length⟩

/-- A text is taken whole up to a limit when it is no longer than that and each of its characters is
taken. -/
theorem upTo_eq_length_iff :
    upTo n p t = some t.length ↔ t.length ≤ n ∧ ∀ c ∈ t, p c = true := by
  constructor
  · intro h
    have hlen : ((t.take n).takeWhile p).length = t.length := Option.some_inj.1 h
    have hle := length_takeWhile_le p (t.take n)
    rw [hlen, List.length_take] at hle
    have hn : t.length ≤ n := by omega
    rw [List.take_of_length_le hn, length_takeWhile_eq_iff] at hlen
    exact ⟨hn, hlen⟩
  · rintro ⟨hn, hp⟩
    rw [upTo, List.take_of_length_le hn, length_takeWhile_eq_iff.2 hp]

/-- What is left of a text that is taken whole is taken whole. -/
def Shrinks (r : Recognizer) : Prop :=
  ∀ v w : Text, v ≠ [] → r (v ++ w) = some (v ++ w).length → r v = some v.length

/-- Of characters of one class, as many as one likes, any front is taken whole. -/
theorem shrinks_many1 (p : Char → Bool) : Shrinks (many1 p) := by
  intro v w hv h
  rw [many1_eq_some_iff, length_takeWhile_eq_iff] at h ⊢
  exact ⟨List.length_pos_iff.2 hv, fun c hc => h.2 c (List.mem_append_left w hc)⟩

/-- A first character and a limited number of others behind it may be cut anywhere behind the first.
-/
theorem shrinks_both_one_upTo (p q : Char → Bool) (n : Nat) :
    Shrinks (both (one p) (upTo n q)) := by
  intro v w hv h
  obtain ⟨c, u, rfl⟩ := List.exists_cons_of_ne_nil hv
  have hboth (t : Text) : both (one p) (upTo n q) (c :: t) = some (c :: t).length ↔
      p c = true ∧ upTo n q t = some t.length := by
    cases hc : p c with
    | false => simp [both, one, hc]
    | true => simp [both, one, upTo, hc]; omega
  rw [List.cons_append, hboth, upTo_eq_length_iff, List.length_append] at h
  rw [hboth, upTo_eq_length_iff]
  exact ⟨h.1, by omega, fun x hx => h.2.2 x (List.mem_append_left w hx)⟩

end Recognizer

namespace Pattern

open Recognizer

/-- What is left of white space or of an operator is read as such. -/
theorem take?_left {pattern : Pattern} (hp : pattern = .whitespace ∨ pattern = .operator)
    (hleft : left ≠ []) (h : pattern.take? (left ++ right) = some (left ++ right).length) :
    pattern.take? left = some left.length := by
  have hshrinks : Shrinks pattern.recognizer := by
    rcases hp with rfl | rfl
    · exact shrinks_many1 isBlank
    · exact shrinks_both_one_upTo isOperatorChar isOperatorChar operatorTailLimit
  rw [take?_eq_some_iff] at h ⊢
  exact ⟨hshrinks left right hleft h.1, List.length_pos_iff.2 hleft⟩

/-- A quoted argument from which something is cut off is no argument any more. -/
theorem take?_argument_of_quote (hright : right ≠ []) {t : Text} (ht : left = '"' :: t)
    (h : Pattern.argument.take? (left ++ right) = some (left ++ right).length) :
    Pattern.argument.take? left = none := by
  rw [take?_eq_none_iff]
  intro m hm
  subst ht
  rw [take?_eq_some_iff, List.cons_append, recognizer_argument_of_quote] at h
  rw [recognizer_argument_of_quote] at hm
  -- what closes the quote in the front would close it in the whole
  have hwhole := Quoted.inline_append hm right
  have hlen := Option.some_inj.1 (hwhole.symm.trans h.1)
  have hle := Quoted.bounded_nameOf _ _ _ hm
  have hpos := List.length_pos_iff.2 hright
  simp only [List.length_cons, List.length_append] at hlen hle
  omega

/-- What is left of an argument is no argument, or is one, or consists of the characters of
numbers. -/
theorem argument_cut (hleft : left ≠ []) (hright : right ≠ [])
    (h : Pattern.argument.take? (left ++ right) = some (left ++ right).length) :
    Pattern.argument.take? left = none ∨ Pattern.argument.take? left = some left.length ∨
      ∀ c ∈ left, isNumberChar c = true := by
  obtain ⟨c, t, rfl⟩ := List.exists_cons_of_ne_nil hleft
  by_cases hc : c = '"'
  · subst hc
    exact .inl (take?_argument_of_quote hright rfl h)
  · rw [take?_eq_some_iff, List.cons_append, recognizer_argument_of_ne hc] at h
    -- without a quote the whole is a bare label, a number with its sign, or a dash
    rcases Option.or_eq_some_iff.1 h.1 with hbare | ⟨-, hrest⟩
    · have hleft' : Label.bare (c :: t) = some (c :: t).length :=
        shrinks_both_one_upTo _ _ _ (c :: t) right hleft hbare
      refine .inr (.inl ?_)
      rw [take?_eq_some_iff, recognizer_argument_of_ne hc]
      refine ⟨?_, Nat.succ_pos _⟩
      show (Label.bare (c :: t)).or _ = _
      rw [hleft', Option.some_or]
    rcases Option.or_eq_some_iff.1 hrest with hnumber | ⟨-, hdash⟩
    · have hblind : Blind (fun c => !isNumberChar c) signedNumber :=
        blind_signedNumber fun c hc => by simpa using hc
      refine .inr (.inr fun x hx => ?_)
      have hmem : x ∈ c :: (t ++ right) := List.mem_append_left right hx
      simpa using hblind.eq_false_of_mem bounded_signedNumber hnumber x hmem
    · -- a dash is a single character, of which nothing can be left
      have hchar : (char '-' (c :: (t ++ right))).or none = some _ := hdash
      rw [Option.or_none] at hchar
      have hone := eq_one_of_one hchar
      have hpos := List.length_pos_iff.2 hright
      rw [List.length_cons, List.length_append] at hone
      omega

end Pattern

-- ---------------------------------------------------------------------------
-- The states that take an argument
-- ---------------------------------------------------------------------------

/-- Arguments one behind the other, with nothing between them. -/
inductive Arguments : Text → Prop
  | nil : Arguments []
  | cons {t : Text} {n : Nat} (h : Pattern.argument.take? t = some n)
      (tail : Arguments (t.drop n)) : Arguments t

/-- Behind an argument the same text goes on as arguments, since a pattern takes only one length. -/
theorem arguments_iff {t : Text} (h : Pattern.argument.take? t = some n) :
    Arguments t ↔ Arguments (t.drop n) := by
  refine ⟨fun harguments => ?_, .cons h⟩
  cases harguments with
  | nil => contradiction
  | cons h' tail =>
    obtain rfl := Option.some_inj.1 (h'.symm.trans h)
    exact tail

/-- A text that begins with no argument is not made of arguments. -/
theorem not_arguments {t : Text} (ht : t ≠ []) (h : Pattern.argument.take? t = none) :
    ¬Arguments t := by
  rintro (_ | ⟨h', -⟩)
  · exact ht rfl
  · rw [h] at h'
    contradiction

/-- The states in which an argument, or the name of a formula, can be read. -/
def State.takesArgument : State → Bool
  | formula .name | formula .arguments | formula .innerArguments => true
  | _ => false

theorem State.isFormula_of_takesArgument {st : State} (h : st.takesArgument = true) :
    st.isFormula = true := by
  unfold takesArgument at h
  split at h <;> first | rfl | contradiction

/-- Besides the name of a formula, it is the arguments of a call that are read. -/
theorem State.arguments_of_takesArgument {st : State} (h : st.takesArgument = true)
    (hname : st ≠ .formula .name) :
    st = .formula .arguments ∨ st = .formula .innerArguments := by
  unfold takesArgument at h
  split at h
  · exact absurd rfl hname
  · exact .inl rfl
  · exact .inr rfl
  · contradiction

/-- Whether a text can be read in a state that takes an argument: as one name, or as arguments. -/
def State.reads (st : State) (t : Text) : Prop :=
  match st with
  | formula .name => Pattern.argument.take? t = some t.length
  | _ => Arguments t

/-- The state behind an argument: a formula has one name, and a call any number of arguments. -/
def State.behindArgument : State → State
  | formula .name => .formula .nameEnd
  | s => s

/-- Where an argument can be read, parentheses and white space are tried first, and what is none of
all these is an error. -/
theorem State.rules_of_takesArgument {st : State} (h : st.takesArgument = true) :
    ∃ pre tr v, st.rules = pre ++ [Rule.arg tr, Rule.failure v .prose] ∧
      (∀ q ∈ pre, q.pattern = .lparen ∨ q.pattern = .rparen ∨ q.pattern = .whitespace) ∧
      Rule.space .stay ∈ pre ∧ ∀ stack, tr.apply st stack = (st.behindArgument, stack) := by
  unfold takesArgument at h
  split at h
  · exact ⟨[Rule.rparen _, Rule.space _], _, _, rfl, by simp [Rule.rparen, Rule.space],
      by simp, fun _ => rfl⟩
  · exact ⟨[Rule.lparen _, Rule.rparen _, Rule.space _], _, _, rfl,
      by simp [Rule.lparen, Rule.rparen, Rule.space], by simp, fun _ => rfl⟩
  · exact ⟨[Rule.rparen _, Rule.lparen _, Rule.space _], _, _, rfl,
      by simp [Rule.lparen, Rule.rparen, Rule.space], by simp, fun _ => rfl⟩
  · contradiction

/-- A digit, a sign, a point or an exponent is neither blank nor a parenthesis. -/
theorem isOperatorChar_of_isNumberChar {c : Char} (h : isNumberChar c = true) :
    Recognizer.isOperatorChar c = true := by
  simp only [isNumberChar, Bool.or_eq_true, beq_iff_eq] at h
  rcases h with ((((hdigit | rfl) | rfl) | rfl) | rfl) | rfl
  · have hblank : isBlank c = false := by
      rw [Bool.eq_false_iff]
      intro hblank
      rw [Recognizer.isDigit_eq_false_of_separator (by rw [hblank]; rfl)] at hdigit
      contradiction
    have hopen : c ≠ '(' := by
      rintro rfl
      contradiction
    have hclose : c ≠ ')' := by
      rintro rfl
      contradiction
    simp [Recognizer.isOperatorChar, hblank, hopen, hclose]
  all_goals decide

/-- Neither a parenthesis nor white space is taken where an operator could begin. -/
theorem Pattern.take?_eq_none_of_startsIn {pattern : Pattern} {t : Text}
    (hp : pattern = .lparen ∨ pattern = .rparen ∨ pattern = .whitespace)
    (ht : t.StartsIn Recognizer.isOperatorChar) : pattern.take? t = none := by
  rw [take?_eq_none_iff]
  intro m hm
  cases t with
  | nil => rcases hp with rfl | rfl | rfl <;> contradiction
  | cons x t =>
    simp only [Text.startsIn_cons, Recognizer.isOperatorChar, Bool.and_eq_true,
      Bool.not_eq_true', bne_iff_ne] at ht
    rcases hp with rfl | rfl | rfl
    · simp [recognizer, Recognizer.char, Recognizer.one, ht.1.2] at hm
    · simp [recognizer, Recognizer.char, Recognizer.one, ht.2] at hm
    · simp [recognizer, Recognizer.many1, ht.1.1] at hm

-- ---------------------------------------------------------------------------
-- Steps that go on without error
-- ---------------------------------------------------------------------------

/-- The steps do not leave the formula before the last of them, and report no error. -/
def Steady (ss : List Step) : Prop :=
  extent Construct.formula.endsAt ss = ss.length ∧ ∀ s ∈ ss, s.token.kind ≠ .error

theorem steady_nil : Steady [] := ⟨rfl, List.forall_mem_nil _⟩

/-- A step is steady with others behind it when it reports no error and does not leave the formula
before them. -/
theorem steady_cons_iff : Steady (s :: ss) ↔
    s.token.kind ≠ .error ∧ (ss = [] ∨ s.after.state ≠ .prose) ∧ Steady ss := by
  rw [Steady, Steady, List.forall_mem_cons, List.length_cons]
  by_cases hs : s.after.state = .prose
  · rw [extent_cons_of_stop (decide_eq_true hs)]
    cases ss with
    | nil => simp [extent]
    | cons x ss => simp [hs]
  · rw [extent_cons_of_not_stop (decide_eq_false hs), Nat.add_right_cancel_iff]
    simp only [hs, ne_eq, not_false_eq_true, or_true, true_and]
    exact and_left_comm

/-- The last step may leave the formula, but not by an error. -/
theorem steady_singleton : Steady [s] ↔ s.token.kind ≠ .error := by
  rw [steady_cons_iff]
  exact ⟨And.left, fun h => ⟨h, .inl rfl, steady_nil⟩⟩

/-- Whether the steps go through a formula without error depends on `P`. -/
structure Hinges (P : Prop) (ss : List Step) : Prop where
  steady : P → Steady ss
  error  : ¬P → ∃ s ∈ ss, s.token.kind = .error

namespace Hinges

variable {P Q : Prop}

theorem of_steady (hP : P) (h : Steady ss) : Hinges P ss := ⟨fun _ => h, absurd hP⟩

theorem of_error (hP : ¬P) (h : ∃ s ∈ ss, s.token.kind = .error) : Hinges P ss :=
  ⟨fun h' => absurd h' hP, fun _ => h⟩

theorem congr (h : Hinges P ss) (hPQ : P ↔ Q) : Hinges Q ss :=
  ⟨fun hQ => h.steady (hPQ.2 hQ), fun hQ => h.error (hPQ.not.2 hQ)⟩

/-- A step without error in front does not change what the others depend on. -/
theorem cons (h : Hinges P ss) (hk : s.token.kind ≠ .error)
    (hs : ss = [] ∨ s.after.state ≠ .prose) : Hinges P (s :: ss) where
  steady hP := steady_cons_iff.2 ⟨hk, hs, h.steady hP⟩
  error hP := by
    obtain ⟨x, hx, hkind⟩ := h.error hP
    exact ⟨x, List.mem_cons_of_mem s hx, hkind⟩

end Hinges

-- ---------------------------------------------------------------------------
-- The lexer on what is left
-- ---------------------------------------------------------------------------

namespace Cursor

theorem stepsFrom_eq_nil (h : c.rest = []) : c.stepsFrom k [] = [] :=
  stepsFrom_none (step?_eq_none_iff.2 h)

/-- Where nothing can be taken but by the rule that reports a violation, there is an error. -/
theorem exists_error (hs : c.state.isFormula = true) (hne : c.rest ≠ [])
    (h : ∀ q ∈ c.state.rules, q.pattern = .symbol ∨ q.pattern.take? c.rest = none) :
    ∃ x ∈ c.stepsFrom k [], x.token.kind = .error := by
  cases hstep : c.step? k with
  | none => exact absurd (step?_eq_none_iff.1 hstep) hne
  | some x =>
    obtain ⟨r, hr⟩ := exists_rule_of_step? hstep
    have hsymbol : r.pattern = .symbol :=
      (h r hr.rule).resolve_right (by rw [hr.take]; nofun)
    have htable := State.forall_rules
      (P := fun s r => s.isFormula = true → r.pattern = .symbol →
        ∀ kind ∈ r.emit.kinds, kind = .error)
      (by decide) hr.rule hs hsymbol
    exact ⟨x, stepsFrom_cons hstep ▸ List.mem_cons_self, htable _ hr.kind_mem⟩

section Arguments

variable (hs : c.state.takesArgument = true)
  (hstart : c.rest.StartsIn Recognizer.isOperatorChar)

include hs hstart

/-- Where an argument could stand and none does, an error is read. -/
theorem exists_error_of_not_argument (hne : c.rest ≠ [])
    (h : Pattern.argument.take? c.rest = none) :
    ∃ x ∈ c.stepsFrom k [], x.token.kind = .error := by
  obtain ⟨pre, tr, v, hrules, hpre, -, -⟩ := State.rules_of_takesArgument hs
  refine exists_error (State.isFormula_of_takesArgument hs) hne ?_
  rw [hrules]
  refine List.forall_mem_append.2 ⟨fun q hq => .inr ?_, ?_⟩
  · exact Pattern.take?_eq_none_of_startsIn (hpre q hq) hstart
  · exact List.forall_mem_cons.2 ⟨.inr h, List.forall_mem_singleton.2 (.inl rfl)⟩

/-- Where an argument stands it is read in one step, and the rest of the text is what lies behind
it. -/
theorem exists_argument (h : Pattern.argument.take? c.rest = some n) :
    ∃ x, c.step? k = some x ∧ x.token.kind = .arg ∧
      x.after.state = c.state.behindArgument ∧ x.after.rest = c.rest.drop n := by
  obtain ⟨pre, tr, v, hrules, hpre, -, hgo⟩ := State.rules_of_takesArgument hs
  cases hstep : c.step? k with
  | none =>
    rw [step?_eq_none_iff.1 hstep] at h
    contradiction
  | some x =>
    -- the rules in front look for parentheses and spaces, which no argument begins with
    have hby : x.By k c (Rule.arg tr) := by_of_rule hstep hrules
      (fun q hq => Pattern.take?_eq_none_of_startsIn (hpre q hq) hstart) h
    have hlen : n = x.token.text.length := Option.some_inj.1 (h.symm.trans hby.take)
    have hgoes := hby.goes.trans (hgo c.stack)
    refine ⟨x, rfl, List.mem_singleton.1 hby.kind_mem, congrArg Prod.fst hgoes, ?_⟩
    rw [hby.rest, hlen, List.drop_left]

end Arguments

/-- Characters of arguments are arguments one behind the other, or an error among them. -/
theorem reads_arguments (k : Keywords) (c : Cursor)
    (hs : c.state = .formula .arguments ∨ c.state = .formula .innerArguments)
    (hchars : ∀ x ∈ c.rest, Recognizer.isOperatorChar x = true) :
    Hinges (Arguments c.rest) (c.stepsFrom k []) := by
  have htakes : c.state.takesArgument = true := by rcases hs with h | h <;> rw [h] <;> rfl
  have hstart : c.rest.StartsIn Recognizer.isOperatorChar :=
    fun x hx => hchars x (List.mem_of_mem_head? hx)
  by_cases hne : c.rest = []
  · rw [stepsFrom_eq_nil hne, hne]
    exact .of_steady .nil steady_nil
  cases hm : Pattern.argument.take? c.rest with
  | none =>
    exact .of_error (not_arguments hne hm) (exists_error_of_not_argument htakes hstart hne hm)
  | some m =>
    obtain ⟨x, hstep, hk, hstate, hrest⟩ := exists_argument (k := k) htakes hstart hm
    have hsame : x.after.state = c.state := by rw [hstate]; rcases hs with h | h <;> rw [h] <;> rfl
    have hprose : x.after.state ≠ .prose := by rw [hsame]; rcases hs with h | h <;> rw [h] <;> nofun
    have htail := reads_arguments k x.after (hsame ▸ hs)
      fun y hy => hchars y (List.mem_of_mem_drop (hrest ▸ hy))
    rw [stepsFrom_cons hstep]
    rw [hrest] at htail
    exact (htail.congr (arguments_iff hm).symm).cons (by rw [hk]; nofun) (.inr hprose)
-- each argument takes at least one character
termination_by c.rest.length
decreasing_by exact rest_length_lt_of_step? hstep

/-- Behind the name of a formula no other one can follow. -/
theorem exists_error_of_nameEnd (hs : c.state = .formula .nameEnd) (hne : c.rest ≠ [])
    (hstart : c.rest.StartsIn Recognizer.isOperatorChar) :
    ∃ x ∈ c.stepsFrom k [], x.token.kind = .error := by
  refine exists_error (by rw [hs]; rfl) hne ?_
  rw [hs]
  refine List.forall_mem_cons.2 ⟨.inr ?_, List.forall_mem_cons.2 ⟨.inr ?_, ?_⟩⟩
  · exact Pattern.take?_eq_none_of_startsIn (.inr (.inl rfl)) hstart
  · exact Pattern.take?_eq_none_of_startsIn (.inr (.inr rfl)) hstart
  · exact List.forall_mem_singleton.2 (.inl rfl)

/-- Where an argument is taken of a number that has more characters, those behind it are arguments,
or there is an error. -/
theorem reads_number (hs : c.state.takesArgument = true)
    (hchars : ∀ x ∈ c.rest, isNumberChar x = true) (hn : Pattern.argument.take? c.rest = some n)
    (hmore : n < c.rest.length) : Hinges (c.state.reads c.rest) (c.stepsFrom k []) := by
  have hplain : ∀ x ∈ c.rest, Recognizer.isOperatorChar x = true := fun x hx =>
    isOperatorChar_of_isNumberChar (hchars x hx)
  -- a formula has one name, so whatever is left behind it is an error; a call has any number of
  -- arguments
  by_cases hname : c.state = .formula .name
  · obtain ⟨x, hstep, -, hstate, hrest⟩ := exists_argument (k := k) hs
      (fun y hy => hplain y (List.mem_of_mem_head? hy)) hn
    have hend : x.after.state = .formula .nameEnd := by rw [hstate, hname]; rfl
    have hleft : x.after.rest ≠ [] := by
      rw [hrest, ne_eq, List.drop_eq_nil_iff]
      omega
    obtain ⟨e, he, herror⟩ := exists_error_of_nameEnd (k := k) hend hleft
      fun y hy => hplain y (List.mem_of_mem_drop (hrest ▸ List.mem_of_mem_head? hy))
    rw [stepsFrom_cons hstep, hname]
    refine .of_error ?_ ⟨e, List.mem_cons_of_mem x he, herror⟩
    show Pattern.argument.take? c.rest ≠ some c.rest.length
    rw [hn, ne_eq, Option.some_inj]
    omega
  · have hargs := State.arguments_of_takesArgument hs hname
    have hreads : Arguments c.rest ↔ c.state.reads c.rest := by
      rcases hargs with h | h <;> rw [h] <;> rfl
    exact (reads_arguments k c hargs hplain).congr hreads

/-- What is left of an argument is read without error where it is one argument or, among the
arguments of a call, several. -/
theorem reads_left (hs : c.state.takesArgument = true) (hne : c.rest ≠ [])
    (hstart : c.rest.StartsIn Recognizer.isOperatorChar)
    (hcut : Pattern.argument.take? c.rest = none ∨
      Pattern.argument.take? c.rest = some c.rest.length ∨
      ∀ x ∈ c.rest, isNumberChar x = true) :
    Hinges (c.state.reads c.rest) (c.stepsFrom k []) := by
  cases hm : Pattern.argument.take? c.rest with
  | none =>
    refine .of_error ?_ (exists_error_of_not_argument hs hstart hne hm)
    unfold State.reads
    split
    · rw [hm]
      nofun
    · exact not_arguments hne hm
  | some m =>
    -- an argument that is not all of what is left is followed by more characters of a number
    by_cases hwhole : m = c.rest.length
    · rw [hwhole] at hm
      obtain ⟨x, hstep, hk, -, hrest⟩ := exists_argument (k := k) hs hstart hm
      rw [List.drop_length] at hrest
      rw [stepsFrom_cons hstep, stepsFrom_eq_nil hrest]
      refine .of_steady ?_ (steady_singleton.2 (by rw [hk]; nofun))
      unfold State.reads
      split
      · exact hm
      · exact .cons hm (by rw [List.drop_length]; exact .nil)
    · rw [hm, Option.some_inj] at hcut
      have hchars := (hcut.resolve_left nofun).resolve_left hwhole
      have hle := Pattern.take?_le hm
      exact reads_number hs hchars hm (by omega)

end Cursor

/-- What is left of a token can be read in its place.  That depends on what is left of an argument,
and of nothing else. -/
def Step.Keeps (s : Step) (left : Text) : Prop :=
  s.token.kind = .arg → s.before.state.reads left

/-- In a formula, a parenthesis cannot be cut, what is left of white space or of an operator is
read as such, and arguments are read where they are taken. -/
theorem Rule.formula_cases {st : State} (hr : r ∈ st.rules) (hs : st.isFormula = true)
    {kind : TokenKind} (hkind : kind ∈ r.emit.kinds) (hk : kind ≠ .error) :
    (r.pattern = .lparen ∨ r.pattern = .rparen) ∨
      ((r.pattern = .whitespace ∨ r.pattern = .operator) ∧ .error ∉ r.emit.kinds ∧ kind ≠ .arg) ∨
      (r.pattern = .argument ∧ kind = .arg ∧ st.takesArgument = true) :=
  State.forall_rules
    (P := fun s r => s.isFormula = true → ∀ kind ∈ r.emit.kinds, kind ≠ .error →
      (r.pattern = .lparen ∨ r.pattern = .rparen) ∨
      ((r.pattern = .whitespace ∨ r.pattern = .operator) ∧ .error ∉ r.emit.kinds ∧
        kind ≠ .arg) ∨
      (r.pattern = .argument ∧ kind = .arg ∧ s.takesArgument = true))
    (by decide) hr hs kind hkind hk

/-- An argument is only read where there is neither a parenthesis nor white space. -/
theorem Step.By.startsIn_of_argument {pre post : List Rule} (h : s.By k c r)
    (hp : r.pattern = .argument) (hs : c.state.takesArgument = true)
    (hrules : c.state.rules = pre ++ r :: post)
    (hpre : ∀ q ∈ pre, q.pattern.take? c.rest = none) :
    c.rest.StartsIn Recognizer.isOperatorChar := by
  obtain ⟨front, tr, v, hrules', hfront, hspace, -⟩ := State.rules_of_takesArgument hs
  have hnot : r ∉ front := by
    intro hmem
    rcases hfront r hmem with h | h | h <;> rw [hp] at h <;> contradiction
  have hfailure : r ∉ [Rule.failure v .prose] := by
    intro hmem
    rw [List.mem_singleton.1 hmem] at hp
    contradiction
  -- the rule of an argument stands in its table once, so the rules in front of it are those in
  -- front of it in the table
  obtain ⟨rfl, -⟩ :=
    (List.append_cons_inj_of_notMem hnot hfailure).1 (hrules'.symm.trans hrules)
  have hwhite : Pattern.whitespace.take? c.rest = none := hpre _ hspace
  have htake := h.take
  intro x hx
  obtain ⟨t, hrest⟩ := List.head?_eq_some_iff.1 hx
  rw [hp, hrest] at htake
  rw [hrest] at hwhite
  obtain ⟨hopen, hclose⟩ := Pattern.ne_paren_of_argument htake
  have hblank : isBlank x = false := by
    rw [Bool.eq_false_iff]
    intro hblank
    obtain ⟨m, hm⟩ :=
      Pattern.take?_whitespace_of_startsIn (List.cons_ne_nil x t) (Text.startsIn_cons.2 hblank)
    rw [hwhite] at hm
    contradiction
  simp [Recognizer.isOperatorChar, hblank, hopen, hclose]

theorem Pattern.length_eq_one_of_paren {pattern : Pattern} {t : Text}
    (hp : pattern = .lparen ∨ pattern = .rparen) (h : pattern.take? t = some n) : n = 1 := by
  rw [take?_eq_some_iff] at h
  rcases hp with rfl | rfl <;> exact Recognizer.eq_one_of_one h.1

/-- A step that takes all that is left is the last one. -/
theorem Step.By.rest_eq_nil (h : s.By k c r)
    (hwhole : r.pattern.take? c.rest = some c.rest.length) : s.after.rest = [] := by
  have hlen := congrArg List.length h.rest
  have htext := Option.some_inj.1 (h.take.symm.trans hwhole)
  rw [List.length_append] at hlen
  exact List.length_eq_zero_iff.1 (by omega)

/-- The lexer on what is left of a token in a formula. -/
theorem Cursor.step_cut (h : c.step? k = some s) (hs : c.state.isFormula = true)
    (hk : s.token.kind ≠ .error) (htext : s.token.text = left ++ right) (hleft : left ≠ [])
    (hright : right ≠ []) :
    Hinges (s.Keeps left) ((c.take left.length).stepsFrom k []) := by
  obtain ⟨pre, r, post, m, hrules, hpre, hm⟩ :=
    c.state.exists_first_rule (rest_ne_nil_of_step? h)
  have hr : s.By k c r := by_of_rule h hrules hpre hm
  have hrest : (c.take left.length).rest = left := by
    show c.rest.take left.length = left
    rw [hr.rest, htext, List.append_assoc, List.take_left]
  -- by the rule that read the whole token
  rcases Rule.formula_cases hr.rule hs hr.kind_mem hk with
    hparen | ⟨hp, herror, harg⟩ | ⟨hp, harg, htakes⟩
  · -- a parenthesis is one character long
    have hone := Pattern.length_eq_one_of_paren hparen hr.take
    have hpos := List.length_pos_iff.2 hleft
    have hpos' := List.length_pos_iff.2 hright
    rw [htext, List.length_append] at hone
    omega
  · have htake := hr.take_text (by rcases hp with hp | hp <;> rw [hp] <;> nofun)
    rw [htext] at htake
    have hwhole := Pattern.take?_left hp hleft htake
    cases hstep : (c.take left.length).step? k with
    | none => exact absurd (hrest ▸ step?_eq_none_iff.1 hstep) hleft
    | some x =>
      have hx : x.By k (c.take left.length) r := by_of_rule hstep hrules
        (fun q hq => Pattern.take?_take_eq_none (hpre q hq) _) (hrest.symm ▸ hwhole)
      have hend : x.after.rest = [] := hx.rest_eq_nil (by rw [hrest, hwhole])
      have hkind : x.token.kind ≠ .error := fun hkind => herror (hkind ▸ hx.kind_mem)
      rw [stepsFrom_cons hstep, stepsFrom_eq_nil hend]
      exact .of_steady (fun h => absurd h harg) (steady_singleton.2 hkind)
  · have htake := hr.take_text (by rw [hp]; nofun)
    rw [hp, htext] at htake
    have hstart : (c.take left.length).rest.StartsIn Recognizer.isOperatorChar :=
      Recognizer.startsIn_take (hr.startsIn_of_argument hp htakes hrules hpre) _
    have hreads := reads_left (k := k) (c := c.take left.length) htakes (by rwa [hrest]) hstart
      (hrest.symm ▸ Pattern.argument_cut hleft hright htake)
    rw [hrest] at hreads
    have hkeeps : c.state.reads left ↔ s.Keeps left := by
      rw [Step.Keeps, hr.before]
      exact ⟨fun h _ => h, fun h => h harg⟩
    exact hreads.congr hkeeps

end Jot
