import Jot.Proofs.Call.Orderly
import Jot.Proofs.WhiteSpace
import Jot.Proofs.Written.Lexing

/-!
# Jot — what stands before an argument

White space and parentheses stand between the arguments of a call, but nothing in the lexer asks for
them.  An argument is read wherever the one before it ends, and behind the operator as well, so a
word that begins like an argument and goes on like another one is two arguments.  Behind the name of
a formula such a word is an error.

* `Step.By.exists_argument` — what is read for an argument;
* `Text.IsOperator.take?_append_cons_iff` — where a word goes on behind an operator;
* `Step.By.precedes` — what a token in front of an argument is;
* `Precedes.adjacent` — a note in which it stands there;
* `adjacent_arg_iff` — both together.
-/

namespace Jot

variable {k : Keywords} {c d : Cursor} {r r' : Rule} {s s' : Step} {n : Nat} {rest : Text}

-- ---------------------------------------------------------------------------
-- Neighbours
-- ---------------------------------------------------------------------------

/-- What two tokens of some note are read from, the one directly behind the other. -/
def Adjacent (k : Keywords) (l m : Lexeme) : Prop :=
  ∃ note s t, [s, t] <:+: tokenize k note ∧ (s.kind, s.text) = l ∧ (t.kind, t.text) = m

/-- What can stand directly before the argument `b`. -/
inductive Precedes (b : Text) : Lexeme → Prop
  | space {t : Text} (hne : t ≠ []) (hblank : t.isBlank = true) : Precedes b (.space, t)
  | opens : Precedes b (.lparen, ['('])
  | closes : Precedes b (.rparen, [')'])
  /-- An operator that is as long as an operator can be. -/
  | operator {o : Text} (ho : o.IsOperator) (hfull : o.length = 42) : Precedes b (.operator, o)
  /-- An argument that `b` does not continue. -/
  | argument (a : Written.Argument)
      (hends : Pattern.argument.take? (a.text ++ b) = some a.text.length) :
      Precedes b (.arg, a.text)

-- ---------------------------------------------------------------------------
-- The two steps
-- ---------------------------------------------------------------------------

namespace Step.By

/-- Arguments are read in the states that take them, and in no other. -/
theorem takesArgument (h : s.By k c r) (hk : s.token.kind = .arg) :
    c.state.takesArgument = true :=
  State.forall_rules (P := fun s r => ∀ kind ∈ r.emit.kinds, kind = .arg → s.takesArgument = true)
    (by decide) h.rule _ h.kind_mem hk

/-- An argument is read whole, and not where there is white space. -/
theorem exists_argument (h : s.By k c r) (hstep : c.step? k = some s) (hk : s.token.kind = .arg) :
    ∃ a : Written.Argument, a.text = s.token.text ∧
      Pattern.argument.take? (a.text ++ s.after.rest) = some a.text.length := by
  have hpattern : r.pattern = .argument := h.pattern_of_kind (by rw [hk]; rfl)
  have htake := h.take
  have hwhole := h.take_text (by rw [hpattern]; nofun)
  rw [hpattern] at htake hwhole
  rw [h.rest] at htake
  have hhead : s.token.text.StartsIn fun x => !isBlank x := by
    intro x hx
    rw [Bool.not_eq_true', Bool.eq_false_iff]
    intro hblank
    have hstate : c.state ≠ .reaction := by
      intro hstate
      have htakes := h.takesArgument hk
      rw [hstate] at htakes
      contradiction
    have hstart : c.rest.StartsIn isBlank := by
      rw [h.rest]
      intro y hy
      rw [List.head?_append_of_ne_nil _ h.text_ne_nil, hx] at hy
      rwa [Option.some_inj.1 hy] at hblank
    -- where a blank is next, white space is read, and the step is only one
    have hspace := (Cursor.by_space hstep hstate hstart).kind_mem
    rw [hk] at hspace
    contradiction
  exact ⟨⟨s.token.text, hwhole, hhead⟩, rfl, htake⟩

/-- The tokens behind which an argument can be read. -/
theorem kind_of_before_argument (h : s.By k c r) (hc : Stacked n c.state c.stack)
    (hafter : s.after.state.takesArgument = true) :
    s.token.kind ∈ [TokenKind.space, .lparen, .rparen, .operator, .arg] :=
  h.relates
    (Q := fun _ kind _ t => t.takesArgument = true →
      kind ∈ [TokenKind.space, .lparen, .rparen, .operator, .arg])
    (by decide) hc hafter

end Step.By

-- ---------------------------------------------------------------------------
-- Words that go on
-- ---------------------------------------------------------------------------

/-- Where the characters of a class go on, as many are taken as can be. -/
theorem Recognizer.takes_upTo_cons_iff {p : Char → Bool} {v : Text} {x : Char} {m : Nat}
    (hv : ∀ y ∈ v, p y = true) (hx : p x = true) (hle : v.length ≤ m) :
    Takes (upTo m p) v (x :: rest) ↔ v.length = m := by
  constructor
  · intro h
    by_contra hne
    have hlen : (((v ++ x :: rest).take m).takeWhile p).length = v.length := Option.some_inj.1 h
    obtain ⟨j, hj⟩ : ∃ j, m - v.length = j + 1 := ⟨m - v.length - 1, by omega⟩
    rw [List.take_append, List.take_of_length_le hle, hj, List.take_succ_cons,
      List.takeWhile_append_of_pos hv, List.takeWhile_cons_of_pos hx, List.length_append,
      List.length_cons] at hlen
    omega
  · intro h
    exact takes_upTo hv hle (.inl h)

open Recognizer in
/-- A word goes on behind an operator if and only if that is as long as operators can be. -/
theorem Text.IsOperator.take?_append_cons_iff {o : Text} {x : Char} (ho : o.IsOperator)
    (hx : isOperatorChar x = true) :
    Pattern.operator.take? (o ++ x :: rest) = some o.length ↔ o.length = 42 := by
  obtain ⟨y, v, rfl⟩ := List.exists_cons_of_length_pos ho.nonempty
  have hchars : ∀ z ∈ y :: v, isOperatorChar z = true := by
    intro z hz
    obtain ⟨hblank, hopen, hclose⟩ := ho.plain z hz
    simp [isOperatorChar, hblank, hopen, hclose]
  obtain ⟨hy, hv⟩ := List.forall_mem_cons.1 hchars
  have hshort : v.length ≤ operatorTailLimit := Nat.le_of_succ_le_succ ho.short
  -- the first character is taken alone, and the others up to the limit
  have hread : Pattern.operator.recognizer (y :: v ++ x :: rest) =
      (upTo operatorTailLimit isOperatorChar (v ++ x :: rest)).map (1 + ·) := by
    show (one isOperatorChar (y :: (v ++ x :: rest))).bind _ = _
    rw [one, if_pos hy]
    rfl
  have htail : Recognizer.Takes (upTo operatorTailLimit isOperatorChar) v (x :: rest) ↔
      v.length = 41 :=
    takes_upTo_cons_iff hv hx hshort
  rw [Pattern.take?_eq_some_iff, hread, Option.map_eq_some_iff, List.length_cons]
  constructor
  · rintro ⟨⟨m, hm, hlen⟩, -⟩
    obtain rfl : m = v.length := by omega
    rw [htail.1 hm]
  · intro hfull
    exact ⟨⟨v.length, htail.2 (by omega), by omega⟩, by omega⟩

/-- An argument begins with a character that operators are made of. -/
theorem Written.Argument.exists_operatorChar (b : Argument) :
    ∃ x t, b.text = x :: t ∧ Recognizer.isOperatorChar x = true := by
  obtain ⟨x, t, htext, hblank, hopen, hclose⟩ := b.exists_cons
  exact ⟨x, t, htext, by simp [Recognizer.isOperatorChar, hblank, hopen, hclose]⟩

/-- What is read in front of an argument. -/
theorem Step.By.precedes (h : s.By k c r) (hstep : c.step? k = some s)
    (hc : Stacked n c.state c.stack) (h' : s'.By k s.after r')
    (hstep' : s.after.step? k = some s') (hk : s'.token.kind = .arg) :
    ∃ b : Written.Argument, b.text = s'.token.text ∧
      Precedes b.text (s.token.kind, s.token.text) := by
  obtain ⟨b, hb, -⟩ := h'.exists_argument hstep' hk
  refine ⟨b, hb, ?_⟩
  have hrest : s.after.rest = b.text ++ s'.after.rest := by rw [hb, h'.rest]
  have hkind := h.kind_of_before_argument hc (h'.takesArgument hk)
  have hpattern {p : Pattern} (hp : s.token.kind.pattern? = some p) : r.pattern = p :=
    h.pattern_of_kind hp
  simp only [List.mem_cons, List.not_mem_nil, or_false] at hkind
  -- the kinds behind which an argument can be read
  rcases hkind with hspace | hopen | hclose | hoperator | harg
  · rw [hspace]
    refine .space h.text_ne_nil ?_
    rw [h.text_of_space hspace]
    exact List.all_takeWhile
  · rw [hopen, h.text_of_char (a := '(') (by rw [hpattern (by rw [hopen]; rfl)]; rfl)]
    exact .opens
  · rw [hclose, h.text_of_char (a := ')') (by rw [hpattern (by rw [hclose]; rfl)]; rfl)]
    exact .closes
  · have hp := hpattern (p := .operator) (by rw [hoperator]; rfl)
    have hwhole := h.take_text (by rw [hp]; decide)
    have htake := h.take
    obtain ⟨x, t, htext, hx⟩ := b.exists_operatorChar
    rw [hp] at hwhole
    rw [hp, h.rest, hrest, htext, List.cons_append] at htake
    have ho := Pattern.isOperator_of_take? hwhole
    rw [hoperator]
    exact .operator ho ((ho.take?_append_cons_iff hx).1 htake)
  · obtain ⟨a, ha, htake⟩ := h.exists_argument hstep harg
    rw [hrest, ← List.append_assoc] at htake
    have hends := Pattern.take?_take (m := (a.text ++ b.text).length) htake
      (by rw [List.length_append]; omega) (fun hp => absurd hp (by decide))
    rw [List.take_left] at hends
    rw [harg, ← ha]
    exact .argument a hends

-- ---------------------------------------------------------------------------
-- Notes in which an argument follows
-- ---------------------------------------------------------------------------

/-- What is read one behind the other at the start of a note is adjacent. -/
theorem Cursor.Lexes.adjacent {note : Text} {e : Cursor} {front : List Lexeme} {l m : Lexeme}
    (h : Lexes k (start note) (front ++ [l]) d) (h' : Lexes k d [m] e) : Adjacent k l m := by
  have htokens := (h.append h').tokenize
  rw [List.append_assoc, Token.layout_append] at htokens
  exact ⟨note, _, _, ⟨_, _, htokens.symm⟩, rfl, rfl⟩

namespace Written

open Cursor

variable {p : Place} {st : State} {stack : List State} {t : Text}

/-- Where an argument can be read, it is, whatever the pattern leaves. -/
theorem lexes_argument (hst : st.takesArgument = true) (a : Argument)
    (h : Pattern.argument.take? (a.text ++ rest) = some a.text.length) :
    Lexes k ⟨a.text ++ rest, p, st, stack⟩ [(.arg, a.text)]
      ⟨rest, p.after a.text, st.behindArgument, stack⟩ := by
  obtain ⟨pre, tr, v, hrules, hpre, -, hgo⟩ := State.rules_of_takesArgument hst
  obtain ⟨hopen, hclose, hspace⟩ := a.take?_eq_none rest
  refine lexes_of_rule pre (Rule.arg tr) hrules ?_ h rfl (hgo stack)
  intro q hq
  rcases hpre q hq with hp | hp | hp <;> rw [hp] <;> assumption

/-- An argument at the end of a note. -/
theorem lexes_last (hst : st.takesArgument = true) (a : Argument) :
    Lexes k ⟨a.text, p, st, stack⟩ [(.arg, a.text)]
      ⟨[], p.after a.text, st.behindArgument, stack⟩ := by
  have h : Lexes k ⟨a.text ++ [], p, st, stack⟩ [(.arg, a.text)]
      ⟨[], p.after a.text, st.behindArgument, stack⟩ :=
    lexes_argument hst a (by rw [List.append_nil]; exact a.whole)
  rwa [List.append_nil] at h

/-- White space before the name of a formula. -/
theorem lexes_space_name (hne : t ≠ []) (hblank : t.isBlank = true)
    (hrest : rest.StartsIn fun x => !isBlank x) :
    Lexes k ⟨t ++ rest, p, .formula .name, stack⟩ [(.space, t)]
      ⟨rest, p.after t, .formula .name, stack⟩ := by
  have hall : ∀ x ∈ t, isBlank x = true := List.all_eq_true.1 hblank
  have htake : Pattern.whitespace.take? (t ++ rest) = some t.length := by
    have hpos := List.length_pos_iff.2 hne
    refine Pattern.take?_eq_some_iff.2 ⟨Recognizer.many1_eq_some_iff.2 ⟨hpos, ?_⟩, hpos⟩
    rw [Text.takeWhile_append_of_startsIn hall hrest]
  have hclose : Pattern.rparen.take? (t ++ rest) = none := by
    obtain ⟨x, u, rfl⟩ := List.exists_cons_of_ne_nil hne
    exact congrArg (Option.filter _)
      (Pattern.rejectsBlank (by decide) x (u ++ rest) (hall x List.mem_cons_self))
  exact lexes_of_rule [Rule.rparen _] (Rule.space .stay) rfl (List.forall_mem_singleton.2 hclose)
    htake rfl rfl

/-- The beginning of a note that is a formula. -/
theorem lexes_setup_open (rest : Text) :
    ∃ p, Lexes k (start (['$', '$', '('] ++ rest)) [(.formulaOpen, ['$', '$']), (.lparen, ['('])]
      ⟨rest, p, .formula .name, [.start]⟩ := by
  have hopen : Lexes k ⟨['('] ++ rest, Place.start.after ['$', '$'], .formula .opened, [.start]⟩
      [(.lparen, ['('])] _ :=
    lexes_of_rule [] (Rule.lparen (.next (.formula .name))) rfl (List.forall_mem_nil _) rfl rfl rfl
  exact ⟨_, lexes_formulaOpen.append hopen⟩

/-- The beginning of a note that is a formula without a name. -/
theorem lexes_call_open (rest : Text) :
    ∃ p ls, Lexes k (start (['$', '$', '(', ')', '('] ++ rest)) ls
      ⟨rest, p, .formula .operator, [.start]⟩ := by
  obtain ⟨p, hname⟩ := lexes_setup_open (k := k) ([')', '('] ++ rest)
  have hclose : Lexes k ⟨[')'] ++ (['('] ++ rest), p, .formula .name, [.start]⟩ _ _ :=
    lexes_of_rule [] (Rule.rparen (.next (.formula .procedure))) rfl (List.forall_mem_nil _)
      rfl rfl rfl
  have hopen : Lexes k ⟨['('] ++ rest, p.after [')'], .formula .procedure, [.start]⟩ _ _ :=
    lexes_of_rule [] (Rule.lparen (.next (.formula .operator))) rfl (List.forall_mem_nil _)
      rfl rfl rfl
  exact ⟨_, _, (hname.append hclose).append hopen⟩

/-- An operator that the pattern takes. -/
theorem lexes_procedure_operator {o : Text}
    (h : Pattern.operator.take? (o ++ rest) = some o.length) :
    Lexes k ⟨o ++ rest, p, .formula .operator, stack⟩ [(.operator, o)]
      ⟨rest, p.after o, .formula .arguments, stack⟩ :=
  lexes_of_rule [] (Rule.operator (.next (.formula .arguments))) rfl (List.forall_mem_nil _)
    h rfl rfl

end Written

open Cursor Written in
/-- What can precede an argument does so in some note. -/
theorem Precedes.adjacent {l : Lexeme} (b : Written.Argument) (h : Precedes b.text l) :
    Adjacent k l (.arg, b.text) := by
  have hhead := b.startsIn_text []
  rw [List.append_nil] at hhead
  cases h with
  | @space t hne hblank =>
    -- before the name of a formula
    obtain ⟨p, hopen⟩ := lexes_setup_open (k := k) (t ++ b.text)
    exact (hopen.append (lexes_space_name hne hblank hhead)).adjacent
      (lexes_last rfl b)
  | opens =>
    obtain ⟨p, hopen⟩ := lexes_setup_open (k := k) b.text
    have hparen : Lexes k (start (['$', '$', '('] ++ b.text))
        ([(.formulaOpen, ['$', '$'])] ++ [(.lparen, ['('])])
        ⟨b.text, p, .formula .name, [.start]⟩ := hopen
    exact hparen.adjacent (lexes_last rfl b)
  | closes =>
    -- behind a nested call
    let minus : Operator := ⟨['-'], by decide, by decide, List.forall_mem_singleton.2 (by decide)⟩
    obtain ⟨p, ls, hopen⟩ := lexes_call_open (k := k)
      (['+'] ++ (['('] ++ (minus.text ++ ([')'] ++ b.text))))
    have hoperator := hopen.append (lexes_procedure_operator rfl)
    have hnested := hoperator.append (lexes_lparen (.inl rfl))
    have hinner := hnested.append (lexes_operator minus (Text.startsIn_cons.2 rfl))
    exact (hinner.append lexes_rparen).adjacent (lexes_last rfl b)
  | @operator o ho hfull =>
    obtain ⟨p, ls, hopen⟩ := lexes_call_open (k := k) (o ++ b.text)
    obtain ⟨x, t, htext, hx⟩ := b.exists_operatorChar
    have htake : Pattern.operator.take? (o ++ b.text) = some o.length := by
      rw [htext]
      exact (ho.take?_append_cons_iff hx).2 hfull
    exact (hopen.append (lexes_procedure_operator htake)).adjacent (lexes_last rfl b)
  | argument a hends =>
    obtain ⟨p, ls, hopen⟩ := lexes_call_open (k := k) (['+'] ++ ([' '] ++ (a.text ++ b.text)))
    have hoperator := hopen.append (lexes_procedure_operator rfl)
    have hspace := hoperator.append (lexes_space (.inl rfl) (a.startsIn_text b.text))
    exact (hspace.append (lexes_argument rfl a hends)).adjacent (lexes_last rfl b)

-- ---------------------------------------------------------------------------
-- Notes
-- ---------------------------------------------------------------------------

/-- What stands in front of an argument in a note. -/
theorem Adjacent.precedes {l : Lexeme} {b : Text} (h : Adjacent k l (.arg, b)) :
    (∃ a : Written.Argument, a.text = b) ∧ Precedes b l := by
  obtain ⟨note, t, u, ⟨before, behind, hsplit⟩, rfl, hu⟩ := h
  obtain ⟨hk, rfl⟩ := Prod.mk.inj hu
  obtain ⟨e, hrun, -⟩ := Cursor.run_steps k note
  rw [tokenize, List.append_assoc] at hsplit
  obtain ⟨ss, pair, hss, -, hpair⟩ := List.map_eq_append_iff.1 hsplit.symm
  obtain ⟨s, single, rfl, rfl, hsingle⟩ := List.map_eq_cons_iff.1 hpair
  obtain ⟨s', ts, rfl, rfl, -⟩ := List.map_eq_cons_iff.1 hsingle
  rw [hss] at hrun
  obtain ⟨c, hbefore, hpair⟩ := Cursor.run_append_iff.1 hrun
  obtain ⟨n, hc⟩ := hbefore.stacked (n := 0) (.empty rfl)
  -- the two tokens are those of two steps, one behind the other
  cases hpair with
  | cons head tail =>
    cases tail with
    | cons head' _ =>
      obtain ⟨r, hr⟩ := Cursor.exists_rule_of_step? head
      obtain ⟨r', hr'⟩ := Cursor.exists_rule_of_step? head'
      obtain ⟨b, hb, hprecedes⟩ := hr.precedes head hc hr' head' hk
      exact ⟨⟨b, hb⟩, hb ▸ hprecedes⟩

/-- **Nothing need stand between two arguments.**  Directly before an argument there is white space,
a parenthesis, an operator that is as long as operators can be, or another argument that it does
not continue; and each of these precedes it in some note. -/
theorem adjacent_arg_iff (k : Keywords) (l : Lexeme) (b : Text) :
    Adjacent k l (.arg, b) ↔ (∃ a : Written.Argument, a.text = b) ∧ Precedes b l := by
  constructor
  · exact Adjacent.precedes
  · rintro ⟨⟨a, rfl⟩, h⟩
    exact h.adjacent a

/-- The word `1a` is two arguments. -/
theorem two_arguments_of_one_word :
    ∃ s t, [s, t] <:+: tokenize Keywords.standard "$$()(+ 1a)".toList ∧
      (s.kind, s.text) = (.arg, ['1']) ∧ (t.kind, t.text) = (.arg, ['a']) := by
  have hlexemes : ((tokenize Keywords.standard "$$()(+ 1a)".toList).drop 6).map
      (fun t => (t.kind, t.text)) = [(.arg, ['1']), (.arg, ['a']), (.rparen, [')'])] := by
    decide +kernel
  obtain ⟨s, pair, hdrop, hs, hpair⟩ := List.map_eq_cons_iff.1 hlexemes
  obtain ⟨t, behind, rfl, ht, -⟩ := List.map_eq_cons_iff.1 hpair
  refine ⟨s, t, ⟨(tokenize Keywords.standard "$$()(+ 1a)".toList).take 6, behind, ?_⟩, hs, ht⟩
  rw [List.append_assoc]
  exact (congrArg _ hdrop.symm).trans (List.take_append_drop 6 _)

/-- Behind the name of a formula the same letter is an error. -/
example : (tokenize Keywords.standard "$$(1a)".toList).map (fun t => (t.kind, t.text)) =
    [(.formulaOpen, ['$', '$']), (.lparen, ['(']), (.arg, ['1']), (.error, ['a', ')'])] := by
  decide +kernel

end Jot
