import Jot.Proofs.Written.Basic

/-!
# Jot — the lexer on written formulas

A written formula is read lexeme by lexeme.  The arguments of a call leave the lexer where they
found it, at any depth: a nested call pushes the state of the call around it, and its closing
parenthesis returns there.

* `Args.lexes` — the arguments of a call, by induction on the tree;
* `Formula.lexes` — a whole formula at the start of a note, whatever comes behind it.
-/

namespace Jot.Written

open Cursor

variable {k : Keywords} {rest : Text} {p : Place} {st : FormulaState} {stack : List State}

-- ---------------------------------------------------------------------------
-- Single lexemes
-- ---------------------------------------------------------------------------

/-- The states in which arguments are read. -/
def TakesArgs (st : FormulaState) : Prop := st = .arguments ∨ st = .innerArguments

/-- In front of a visible character the pattern for white space takes one space and no more. -/
theorem take?_space (h : rest.StartsIn fun c => !isBlank c) :
    Pattern.whitespace.take? ([' '] ++ rest) = some 1 := by
  have hblank : ([' '] ++ rest).takeWhile isBlank = [' '] :=
    Text.takeWhile_append_of_startsIn (by simp; rfl) h
  have hmany : Recognizer.many1 isBlank ([' '] ++ rest) = some 1 :=
    Recognizer.many1_eq_some_iff.2 ⟨Nat.one_pos, by rw [hblank]; rfl⟩
  rw [Pattern.take?, Pattern.recognizer, hmany]
  rfl

/-- A space between arguments is one lexeme, and the lexer goes on in the same state. -/
theorem lexes_space (hst : TakesArgs st) (h : rest.StartsIn fun c => !isBlank c) :
    Lexes k ⟨[' '] ++ rest, p, .formula st, stack⟩ [(.space, [' '])]
      ⟨rest, p.after [' '], .formula st, stack⟩ := by
  -- the two states list the same rules in another order
  rcases hst with rfl | rfl
  · exact lexes_of_rule [Rule.lparen _, Rule.rparen _] (Rule.space .stay) rfl
      (List.forall_mem_cons.2 ⟨rfl, List.forall_mem_singleton.2 rfl⟩) (take?_space h) rfl rfl
  · exact lexes_of_rule [Rule.rparen _, Rule.lparen _] (Rule.space .stay) rfl
      (List.forall_mem_cons.2 ⟨rfl, List.forall_mem_singleton.2 rfl⟩) (take?_space h) rfl rfl

/-- An argument in front of a delimiter is read whole. -/
theorem lexes_arg (hst : TakesArgs st) (a : Argument) (h : rest.StartsIn isDelimiter) :
    Lexes k ⟨a.text ++ rest, p, .formula st, stack⟩ [(.arg, a.text)]
      ⟨rest, p.after a.text, .formula st, stack⟩ := by
  have htake : Pattern.argument.take? (a.text ++ rest) = some a.text.length :=
    Pattern.take?_argument_append a.whole h
  obtain ⟨hopen, hclose, hspace⟩ := a.take?_eq_none rest
  rcases hst with rfl | rfl
  · exact lexes_of_rule [Rule.lparen _, Rule.rparen _, Rule.space _] (Rule.arg .stay) rfl
      (by simpa [Rule.lparen, Rule.rparen, Rule.space] using ⟨hopen, hclose, hspace⟩) htake rfl rfl
  · exact lexes_of_rule [Rule.rparen _, Rule.lparen _, Rule.space _] (Rule.arg .stay) rfl
      (by simpa [Rule.lparen, Rule.rparen, Rule.space] using ⟨hclose, hopen, hspace⟩) htake rfl rfl

/-- A parenthesis opens a nested call: its state is entered, and that of the call around it waits on
the stack. -/
theorem lexes_lparen (hst : TakesArgs st) :
    Lexes k ⟨['('] ++ rest, p, .formula st, stack⟩ [(.lparen, ['('])]
      ⟨rest, p.after ['('], .formula .innerOperator, .formula st :: stack⟩ := by
  rcases hst with rfl | rfl
  · exact lexes_of_rule [] (Rule.lparen (.push (.formula .innerOperator))) rfl
      (List.forall_mem_nil _) rfl rfl rfl
  · exact lexes_of_rule [Rule.rparen _] (Rule.lparen (.push (.formula .innerOperator))) rfl
      (List.forall_mem_singleton.2 rfl) rfl rfl rfl

/-- The closing parenthesis of a nested call leads back to the state on top of the stack. -/
theorem lexes_rparen {s : State} :
    Lexes k ⟨[')'] ++ rest, p, .formula .innerArguments, s :: stack⟩ [(.rparen, [')'])]
      ⟨rest, p.after [')'], s, stack⟩ :=
  lexes_of_rule [] (Rule.rparen .pop) rfl (List.forall_mem_nil _) rfl rfl rfl

/-- Behind the parenthesis of a nested call its operator is read whole, since a delimiter comes
next. -/
theorem lexes_operator (o : Operator) (h : rest.StartsIn isDelimiter) :
    Lexes k ⟨o.text ++ rest, p, .formula .innerOperator, stack⟩ [(.operator, o.text)]
      ⟨rest, p.after o.text, .formula .innerArguments, stack⟩ := by
  have htake : Pattern.operator.take? (o.text ++ rest) = some o.text.length :=
    (Pattern.take?_operator_append o.text h).trans o.take?_text
  exact lexes_of_rule [] (Rule.operator (.next (.formula .innerArguments))) rfl
    (List.forall_mem_nil _) htake rfl rfl

-- ---------------------------------------------------------------------------
-- Arguments
-- ---------------------------------------------------------------------------

/-- An argument begins with something visible, so that the space before it is a lexeme of its own.
-/
theorem Argument.startsIn_text (a : Argument) (rest : Text) :
    Text.StartsIn (fun c => !isBlank c) (a.text ++ rest) := by
  obtain ⟨c, t, h, hblank, -⟩ := a.exists_cons
  rw [h, List.cons_append, Text.startsIn_cons, hblank]
  rfl

/-- Written arguments, with the parenthesis that closes the call, begin with a delimiter: a space or
that parenthesis. -/
theorem Args.startsIn_print (args : Args) (rest : Text) :
    Text.StartsIn isDelimiter (args.print ++ ([')'] ++ rest)) := by
  cases args with
  | nil | leaf | call => exact Text.startsIn_cons.2 rfl

/-- A nested call is read whole if its arguments are, and the state is again that of the call around
it. -/
theorem Operator.lexes_around (o : Operator) (args : Args) (hst : TakesArgs st) (rest : Text)
    (hargs : ∀ p stack, Lexes k
      ⟨args.print ++ ([')'] ++ rest), p, .formula .innerArguments, stack⟩ args.lexemes
      ⟨[')'] ++ rest, p.after args.print, .formula .innerArguments, stack⟩) :
    Lexes k ⟨o.around args.print ++ rest, p, .formula st, stack⟩ (o.lexemes args.lexemes)
      ⟨rest, p.after (o.around args.print), .formula st, stack⟩ := by
  have hopen : Lexes k ⟨['('] ++ (o.text ++ (args.print ++ ([')'] ++ rest))), p, .formula st, stack⟩
      _ _ := lexes_lparen hst
  have hoperator := hopen.append (lexes_operator o (args.startsIn_print rest))
  -- the closing parenthesis returns to the state that the opening one has left
  have hcall := (hoperator.append (hargs _ _)).append lexes_rparen
  simpa [around, lexemes, Place.after_append] using hcall

/-- The arguments of a call leave the lexer in the state in which it found them. -/
theorem Args.lexes (args : Args) (hst : TakesArgs st) (rest : Text) (p : Place)
    (stack : List State) :
    Lexes k ⟨args.print ++ ([')'] ++ rest), p, .formula st, stack⟩ args.lexemes
      ⟨[')'] ++ rest, p.after args.print, .formula st, stack⟩ := by
  -- the state is general: the arguments of a nested call are read in its own state, those behind it
  -- in the state of the call around it
  induction args generalizing st rest p stack with
  | nil => exact .refl _
  | leaf a others ih =>
    have hspace : Lexes k ⟨[' '] ++ (a.text ++ (others.print ++ ([')'] ++ rest))), p, .formula st,
        stack⟩ _ _ := lexes_space hst (a.startsIn_text _)
    have harg := hspace.append (lexes_arg hst a (others.startsIn_print rest))
    have hothers := harg.append (ih hst rest _ stack)
    simpa [print, lexemes, Place.after_append] using hothers
  | call o args others ihargs ihothers =>
    have hspace : Lexes k ⟨[' '] ++ (o.around args.print ++ (others.print ++ ([')'] ++ rest))), p,
        .formula st, stack⟩ _ _ := lexes_space hst (Text.startsIn_cons.2 rfl)
    have hcall := hspace.append (o.lexes_around args hst _ (ihargs (.inr rfl) _))
    have hothers := hcall.append (ihothers hst rest _ stack)
    simpa [print, lexemes, Place.after_append] using hothers

-- ---------------------------------------------------------------------------
-- Formulas
-- ---------------------------------------------------------------------------

/-- At the start of a note, a formula is nothing else that a note may start with. -/
theorem lexes_formulaOpen :
    Lexes k (start (['$', '$'] ++ rest)) [(.formulaOpen, ['$', '$'])]
      ⟨rest, Place.start.after ['$', '$'], .formula .opened, [.start]⟩ := by
  -- the rules before that of the formula, each with a first character other than a dollar sign, or
  -- refused at the second one
  refine lexes_of_rule
    [⟨.pin, _, _⟩, Rule.dateTime, Rule.folder _, ⟨.reactionOpen, _, _⟩, Rule.mark .tag,
      Rule.mark .mention, Rule.mark .cell, Rule.mark .event, Rule.mark .url, Rule.mark .bean,
      ⟨.link, _, _⟩]
    ⟨.formulaOpen, _, .push (.formula .opened)⟩ rfl ?_ rfl rfl rfl
  repeat refine List.forall_mem_cons.2 ⟨rfl, ?_⟩
  exact List.forall_mem_nil _

/-- The name of a formula and the parenthesis that closes its group are read, also where there is no
name. -/
theorem lexes_name (f : Formula) :
    Lexes k ⟨(f.name.map Argument.text).getD [] ++ ([')'] ++ rest), p, .formula .name, stack⟩
      ((f.name.map fun a => (TokenKind.arg, a.text)).toList ++ [(.rparen, [')'])])
      ⟨rest, p.after ((f.name.map Argument.text).getD [] ++ [')']), .formula .procedure,
        stack⟩ := by
  cases f.name with
  | none =>
    have hclose : Lexes k ⟨[')'] ++ rest, p, .formula .name, stack⟩ _ _ :=
      lexes_of_rule [] (Rule.rparen (.next (.formula .procedure))) rfl (List.forall_mem_nil _)
        rfl rfl rfl
    exact hclose
  | some a =>
    have hdelimiter : Text.StartsIn isDelimiter ([')'] ++ rest) := Text.startsIn_cons.2 rfl
    have htake : Pattern.argument.take? (a.text ++ ([')'] ++ rest)) = some a.text.length :=
      Pattern.take?_argument_append a.whole hdelimiter
    obtain ⟨-, hclose, hspace⟩ := a.take?_eq_none ([')'] ++ rest)
    have hname : Lexes k ⟨a.text ++ ([')'] ++ rest), p, .formula .name, stack⟩ _ _ :=
      lexes_of_rule [Rule.rparen _, Rule.space _] (Rule.arg (.next (.formula .nameEnd))) rfl
        (by simpa [Rule.rparen, Rule.space] using ⟨hclose, hspace⟩) htake rfl rfl
    have hend := hname.append (lexes_of_rule [] (Rule.rparen (.next (.formula .procedure))) rfl
      (List.forall_mem_nil _) rfl rfl rfl)
    simpa [Place.after_append] using hend

/-- A formula is read up to its call: the sign, the group of the name, and the space behind it. -/
theorem Formula.lexes_setup (f : Formula) (h : rest.StartsIn fun c => !isBlank c) :
    Lexes k (start (f.setup ++ rest)) f.setupLexemes
      ⟨rest, Place.start.after f.setup, .formula .procedure, [.start]⟩ := by
  have hopen : Lexes k ⟨['('] ++ ((f.name.map Argument.text).getD [] ++
      ([')'] ++ ([' '] ++ rest))), Place.start.after ['$', '$'], .formula .opened,
      [.start]⟩ _ _ :=
    lexes_of_rule [] (Rule.lparen (.next (.formula .name))) rfl (List.forall_mem_nil _) rfl rfl rfl
  have hname := (lexes_formulaOpen.append hopen).append (lexes_name f)
  have hspace := hname.append (lexes_of_rule [Rule.lparen _] (Rule.space .stay) rfl
    (List.forall_mem_singleton.2 rfl) (take?_space h) rfl rfl)
  simpa [setup, setupLexemes, Place.after_append] using hspace

/-- The call of a formula is read whole, and its closing parenthesis leads out of the formula. -/
theorem Operator.lexes_procedure (o : Operator) (args : Args) (rest : Text) :
    Lexes k ⟨o.around args.print ++ rest, p, .formula .procedure, stack⟩ (o.lexemes args.lexemes)
      ⟨rest, p.after (o.around args.print), .prose, []⟩ := by
  have hopen : Lexes k ⟨['('] ++ (o.text ++ (args.print ++ ([')'] ++ rest))), p,
      .formula .procedure, stack⟩ _ _ :=
    lexes_of_rule [] (Rule.lparen (.next (.formula .operator))) rfl (List.forall_mem_nil _) rfl
      rfl rfl
  have htake : Pattern.operator.take? (o.text ++ (args.print ++ ([')'] ++ rest))) =
      some o.text.length :=
    (Pattern.take?_operator_append o.text (args.startsIn_print rest)).trans o.take?_text
  have hoperator := hopen.append (lexes_of_rule [] (Rule.operator (.next (.formula .arguments))) rfl
    (List.forall_mem_nil _) htake rfl rfl)
  have hargs := hoperator.append (args.lexes (.inl rfl) rest _ stack)
  have hclose := hargs.append (lexes_of_rule [Rule.lparen _] (Rule.rparen (.next .prose)) rfl
    (List.forall_mem_singleton.2 rfl) rfl rfl rfl)
  simpa [around, lexemes, Place.after_append] using hclose

/-- A formula is read whole, whatever comes behind it. -/
theorem Formula.lexes (f : Formula) (rest : Text) :
    Lexes k (start (f.print ++ rest)) f.lexemes
      ⟨rest, Place.start.after f.print, .prose, []⟩ := by
  have hparen : Text.StartsIn (fun c => !isBlank c) (f.operator.around f.args.print ++ rest) :=
    Text.startsIn_cons.2 rfl
  have hcall := (f.lexes_setup (k := k) hparen).append (f.operator.lexes_procedure f.args rest)
  simpa [print, lexemes, Place.after_append] using hcall

end Jot.Written
