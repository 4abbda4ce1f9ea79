import Mathlib.Data.List.TakeWhile
import Jot.Proofs.Delimiter
import Jot.Proofs.Lexeme

/-!
# Jot — written formulas

A formula before it is printed: an operator, an argument and a name carry the proof that they can
be written down, and a call is a tree of these.  `Formula.print` writes a formula, `Formula.value`
is what should be read from that text, and the lexemes are what the lexer should make of it.

* `Operator`, `Argument`, `Args`, `Formula` — what can be written, and `Formula.sum`, which is;
* `Argument.callArg_decode` — what an argument stands for;
* `Formula.textOf_lexemes` — the lexemes of a formula make up its text.
-/

namespace Jot.Written

-- ---------------------------------------------------------------------------
-- Formulas
-- ---------------------------------------------------------------------------

/-- The operator of a call: no blank and no parenthesis, and not longer than the lexer allows. -/
structure Operator where
  text   : Text
  ne_nil : text ≠ []
  length : text.length ≤ 42
  plain  : ∀ c ∈ text, isBlank c = false ∧ c ≠ '(' ∧ c ≠ ')'

/-- An argument of a call, or the name of a formula: all of it is what the pattern takes. -/
structure Argument where
  text  : Text
  whole : Pattern.argument.take? text = some text.length
  head  : text.StartsIn fun c => !isBlank c

/-- What stands behind the operator of a call, up to its closing parenthesis: arguments and
nested calls, each followed by the others. -/
inductive Args where
  | nil
  | leaf (a : Argument) (rest : Args)
  | call (o : Operator) (args rest : Args)

/-- A formula; a dash is no name. -/
structure Formula where
  name     : Option Argument
  named    : ∀ a ∈ name, a.text ≠ ['-']
  operator : Operator
  args     : Args

-- ---------------------------------------------------------------------------
-- What is written
-- ---------------------------------------------------------------------------

/-- A call whose arguments are written already. -/
def Operator.around (o : Operator) (args : Text) : Text := '(' :: (o.text ++ (args ++ [')']))

/-- Each argument and each nested call has a space before it. -/
def Args.print : Args → Text
  | nil => []
  | leaf a rest => ' ' :: (a.text ++ rest.print)
  | call o args rest => ' ' :: (o.around args.print ++ rest.print)

/-- What stands before the call of a formula; without a name its group is empty. -/
def Formula.setup (f : Formula) : Text :=
  ['$', '$', '('] ++ (f.name.map Argument.text).getD [] ++ [')', ' ']

/-- The text of a formula. -/
def Formula.print (f : Formula) : Text := f.setup ++ f.operator.around f.args.print

/-- One, the negative of π and something left out, added up under a name of several words. -/
def Formula.sum : Formula where
  name     := some ⟨"\"all of it\"".toList, by decide, Text.startsIn_cons.2 rfl⟩
  named    := by simp
  operator := ⟨"+".toList, by decide, by decide, by simp [isBlank]⟩
  args     :=
    .leaf ⟨"1".toList, by decide, Text.startsIn_cons.2 rfl⟩
      (.call ⟨"neg".toList, by decide, by decide, by simp [isBlank]⟩
        (.leaf ⟨"pi".toList, by decide, Text.startsIn_cons.2 rfl⟩ .nil)
        (.leaf ⟨"-".toList, by decide, Text.startsIn_cons.2 rfl⟩ .nil))

example : Formula.sum.print = "$$(\"all of it\") (+ 1 (neg pi) -)".toList := rfl

-- ---------------------------------------------------------------------------
-- What is meant
-- ---------------------------------------------------------------------------

/-- The text between the quotes, if there are quotes. -/
def Argument.content (a : Argument) : Text :=
  match a.text with
  | '"' :: t => t.dropLast
  | t => t

/-- A dash stands for an argument that is left out, and a name of π for its digits. -/
def Argument.value (a : Argument) : Arg :=
  if a.text = ['-'] then .skip
  else if Decode.isPi a.content then .value Decode.piDigits
  else .value a.content

/-- A call that stands at a place, with what is read from its arguments. -/
def Operator.call (o : Operator) (p : Place) (args : Text) (values : List Arg) : Call :=
  { toPiece := Piece.ofText p (o.around args), operator := some o.text, args := values
    status := .sound }

/-- The place behind the operator of a call, where its arguments begin. -/
def Operator.behind (o : Operator) (p : Place) : Place := p.after ('(' :: o.text)

/-- What is read from arguments that stand at a place. -/
def Args.values (p : Place) : Args → List Arg
  | nil => []
  | leaf a rest => a.value :: rest.values (p.after (' ' :: a.text))
  | call o args rest =>
    .call (o.call (p.next ' ') args.print (args.values (o.behind (p.next ' ')))) ::
      rest.values (p.after (' ' :: o.around args.print))

/-- What is read from a formula at the start of a note. -/
def Formula.value (f : Formula) : Jot.Formula :=
  let p := Place.start.after f.setup
  { name := f.name.map Argument.content
    procedure := some (f.operator.call p f.args.print (f.args.values (f.operator.behind p))) }

-- ---------------------------------------------------------------------------
-- Lexemes
-- ---------------------------------------------------------------------------

/-- The lexemes of a call around those of its arguments. -/
def Operator.lexemes (o : Operator) (args : List Lexeme) : List Lexeme :=
  (.lparen, ['(']) :: (.operator, o.text) :: (args ++ [(.rparen, [')'])])

/-- The lexemes of the arguments of a call, with the space before each. -/
def Args.lexemes : Args → List Lexeme
  | nil => []
  | leaf a rest => (.space, [' ']) :: (.arg, a.text) :: rest.lexemes
  | call o args rest => (.space, [' ']) :: (o.lexemes args.lexemes ++ rest.lexemes)

/-- The lexemes before the call of a formula. -/
def Formula.setupLexemes (f : Formula) : List Lexeme :=
  [(.formulaOpen, ['$', '$']), (.lparen, ['('])] ++
    (f.name.map fun a => (TokenKind.arg, a.text)).toList ++ [(.rparen, [')']), (.space, [' '])]

/-- The lexemes of a formula. -/
def Formula.lexemes (f : Formula) : List Lexeme :=
  f.setupLexemes ++ f.operator.lexemes f.args.lexemes

theorem Operator.textOf_lexemes (o : Operator) (ls : List Lexeme) :
    Lexeme.textOf (o.lexemes ls) = o.around (Lexeme.textOf ls) := by
  simp [lexemes, around]

/-- The lexemes of arguments make up their text. -/
theorem Args.textOf_lexemes (args : Args) : Lexeme.textOf args.lexemes = args.print := by
  induction args with
  | nil => rfl
  | leaf a rest ih => simp [lexemes, print, ih]
  | call o args rest ihargs ihrest =>
    simp [lexemes, print, Operator.textOf_lexemes, ihargs, ihrest]

theorem Formula.textOf_setupLexemes (f : Formula) : Lexeme.textOf f.setupLexemes = f.setup := by
  cases h : f.name <;> simp [setupLexemes, setup, h]

theorem Formula.textOf_lexemes (f : Formula) : Lexeme.textOf f.lexemes = f.print := by
  rw [lexemes, Lexeme.textOf_append, f.textOf_setupLexemes, Operator.textOf_lexemes,
    Args.textOf_lexemes, print]

-- ---------------------------------------------------------------------------
-- Operators and arguments
-- ---------------------------------------------------------------------------

/-- The pattern for operators takes an operator whole: the first character, and no more behind it
than the limit of the tail. -/
theorem Operator.take?_text (o : Operator) :
    Pattern.operator.take? o.text = some o.text.length := by
  obtain ⟨c, t, h⟩ := List.exists_cons_of_ne_nil o.ne_nil
  have hall : ∀ x ∈ c :: t, Recognizer.isOperatorChar x = true := by
    intro x hx
    obtain ⟨hblank, hopen, hclose⟩ := o.plain x (h ▸ hx)
    simp [Recognizer.isOperatorChar, hblank, hopen, hclose]
  obtain ⟨hc, ht⟩ := List.forall_mem_cons.1 hall
  have hlen : t.length ≤ Recognizer.operatorTailLimit := by
    have hlen := o.length
    rw [h, List.length_cons] at hlen
    exact Nat.le_of_succ_le_succ hlen
  have htail : ((t.take Recognizer.operatorTailLimit).takeWhile Recognizer.isOperatorChar) = t := by
    rw [List.take_of_length_le hlen, List.takeWhile_eq_self_iff.2 ht]
  have hrecognize : Pattern.operator.recognizer (c :: t) = some (1 + t.length) := by
    show Recognizer.operatorName (c :: t) = _
    simp [Recognizer.operatorName, Recognizer.both, Recognizer.one, Recognizer.upTo, hc, htail]
  rw [h, Pattern.take?, hrecognize, Nat.add_comm, Option.filter_some, if_pos (by simp),
    List.length_cons]

namespace Argument

/-- An argument begins with a character that is neither blank nor a parenthesis. -/
theorem exists_cons (a : Argument) :
    ∃ c t, a.text = c :: t ∧ isBlank c = false ∧ c ≠ '(' ∧ c ≠ ')' := by
  obtain ⟨c, t, h⟩ := List.exists_cons_of_length_pos (Pattern.take?_pos a.whole)
  have hwhole := a.whole
  have hhead := a.head
  rw [h] at hwhole hhead
  exact ⟨c, t, h, by simpa using hhead, Pattern.ne_paren_of_argument hwhole⟩

/-- The other patterns for what may stand in a call do not match an argument. -/
theorem take?_eq_none (a : Argument) (rest : Text) :
    Pattern.lparen.take? (a.text ++ rest) = none ∧ Pattern.rparen.take? (a.text ++ rest) = none ∧
      Pattern.whitespace.take? (a.text ++ rest) = none := by
  obtain ⟨c, t, h, hblank, hopen, hclose⟩ := a.exists_cons
  rw [h, List.cons_append]
  refine ⟨?_, ?_, ?_⟩
  · simp [Pattern.take?, Pattern.recognizer, Recognizer.char, Recognizer.one, hopen]
  · simp [Pattern.take?, Pattern.recognizer, Recognizer.char, Recognizer.one, hclose]
  · simp [Pattern.take?, Pattern.recognizer, Recognizer.many1, hblank]

/-- A quoted label is quoted, and no other argument is. -/
theorem dequote_text (a : Argument) : Text.dequote a.text = a.content := by
  obtain ⟨c, t, h, -⟩ := a.exists_cons
  have hwhole := a.whole
  rw [h] at hwhole
  rw [Text.dequote, Text.isQuoted, content, h]
  -- the pattern has taken all of a text that begins with a quote, so the name in it is closed at
  -- the very end
  by_cases hc : c = '"'
  · subst hc
    rw [Pattern.take?, Pattern.recognizer_argument_of_quote, Option.filter_eq_some_iff] at hwhole
    rw [Quoted.name_of_inline hwhole.1, beq_self_eq_true, if_pos rfl]
    rfl
  · have hname : Quoted.name (c :: t) = none := Quoted.nameOf_of_ne hc t
    have hbare : ¬((none : Option Nat) == some (c :: t).length) = true := Bool.false_ne_true
    rw [hname, if_neg hbare]
    split
    · next h => exact absurd (List.cons.inj h).1 hc
    · rfl

/-- As the name of a formula, an argument other than a dash is its content. -/
theorem asText_decode (a : Argument) (h : a.text ≠ ['-']) :
    (decode .arg a.text).asText = some a.content := by
  show (if a.text = ['-'] then none else some (Text.dequote a.text)) = _
  rw [if_neg h, dequote_text]

/-- What the reader of a call makes of an argument. -/
theorem callArg_decode (a : Argument) :
    Decode.callArg (decode .arg a.text) = a.value := by
  show Decode.callArg (.arg (if a.text = ['-'] then none else some (Text.dequote a.text))) = _
  rw [dequote_text, value]
  split
  · rfl
  · show Arg.value (if _ then _ else _) = _
    split <;> rfl

end Argument

end Jot.Written
