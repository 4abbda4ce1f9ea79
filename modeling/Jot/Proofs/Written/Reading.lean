import Jot.Record
import Jot.Proofs.Written.Lexing

/-!
# Jot — written formulas are read back

The reader of calls meets the tokens of a written call and finds what was meant by it.  Between
its opening parenthesis and the closing one it only adds to the frame of the call, so the frames of
the calls around it do not matter.

* `Args.adds` — the arguments of a call, by induction on the tree;
* `Formula.read?_layout` — the tokens of a formula make up its value;
* `parse_print` — a formula that is printed and parsed is the same formula.
-/

namespace Jot

namespace Written

-- ---------------------------------------------------------------------------
-- Calls
-- ---------------------------------------------------------------------------

/-- The texts that the arguments of a call add to its frame. -/
def Args.parts : Args → List Text
  | nil => []
  | leaf a rest => [' '] :: a.text :: rest.parts
  | call o args rest => [' '] :: o.around args.print :: rest.parts

/-- The texts that arguments add to a frame make up the written arguments. -/
theorem Args.flatten_parts (args : Args) : args.parts.flatten = args.print := by
  induction args with
  | nil => rfl
  | leaf a rest ih => simp [parts, print, ih]
  | call o args rest _ ih => simp [parts, print, ih]

/-- The frame of a call behind arguments that stand at `p`. -/
def Args.frame (args : Args) (p : Place) (f : Frame) : Frame :=
  { f with
    pieces := (Piece.layout p args.parts).reverse ++ f.pieces
    args := (args.values p).reverse ++ f.args }

/-- Reading the arguments of a call does nothing but add to its frame. -/
def Args.Adds (args : Args) : Prop :=
  ∀ p i f outer more, Call.readFrom i f outer (Token.layout p args.lexemes ++ more) =
    Call.readFrom (i + args.lexemes.length) (args.frame p f) outer more

/-- The frame of a call at `p` in front of its closing parenthesis. -/
def Operator.frame (o : Operator) (p : Place) (args : Args) : Frame :=
  args.frame (o.behind p)
    ⟨p, [Piece.ofText (p.after ['(']) o.text, Piece.ofText p ['(']], some o.text, []⟩

/-- The frame of a call that gets its closing parenthesis is finished to the call that was meant. -/
theorem Operator.finish_frame (o : Operator) (p : Place) (args : Args) :
    ((o.frame p args).absorb
      (Piece.ofText ((o.behind p).after args.print) [')'])).finish .sound =
      o.call p args.print (args.values (o.behind p)) := by
  -- pieces are collected from the end, and so are the arguments
  have hpieces : (Piece.ofText ((o.behind p).after args.print) [')'] ::
      (o.frame p args).pieces).reverse =
      Piece.layout p (['('] :: (o.text :: (args.parts ++ [[')']]))) := by
    rw [Piece.layout, Piece.layout, Piece.layout_append, args.flatten_parts]
    simp [frame, Args.frame, behind, Piece.layout]
  have htext : (['('] :: (o.text :: (args.parts ++ [[')']]))).flatten = o.around args.print := by
    simp [around, args.flatten_parts]
  have hvalues : (o.frame p args).args.reverse = args.values (o.behind p) := by
    simp [frame, Args.frame]
  rw [Frame.finish, Frame.absorb, hpieces, Piece.join_layout, htext, call]
  simp only [hvalues]
  rfl

/-- The tokens of a call: its parenthesis, its operator, those of its arguments, and its closing
parenthesis. -/
theorem Operator.layout_lexemes (o : Operator) (args : Args) (p : Place) :
    Token.layout p (o.lexemes args.lexemes) =
      ⟨Piece.ofText p ['('], .lparen, .text ['(']⟩ ::
        ⟨Piece.ofText (p.after ['(']) o.text, .operator, .text o.text⟩ ::
          (Token.layout (o.behind p) args.lexemes ++
            [⟨Piece.ofText ((o.behind p).after args.print) [')'], .rparen, .text [')']⟩]) := by
  rw [lexemes, Token.layout, Token.layout, Token.layout_append, args.textOf_lexemes]
  rfl

/-- From its opening parenthesis a call is read up to the closing one, in a frame of its own. -/
theorem Operator.readFrom_enter (o : Operator) (args : Args) (p : Place) (i : Nat)
    (outer : List Frame) (more : List Token) (hargs : args.Adds) :
    Call.readFrom i (Frame.enter ⟨Piece.ofText p ['('], .lparen, .text ['(']⟩) outer
        (((Token.layout p (o.lexemes args.lexemes)).tail) ++ more) =
      Call.readFrom (i + 1 + args.lexemes.length) (o.frame p args) outer
        (⟨Piece.ofText ((o.behind p).after args.print) [')'], .rparen, .text [')']⟩ :: more) := by
  rw [o.layout_lexemes, List.tail_cons, List.cons_append, List.append_assoc]
  show Call.readFrom (i + 1) ⟨p, [_, _], some o.text, []⟩ outer (_ ++ (_ :: more)) = _
  rw [hargs]
  rfl

/-- A nested call becomes an argument of the call around it. -/
theorem Operator.readFrom_layout (o : Operator) (args : Args) (p : Place) (i : Nat) (f : Frame)
    (outer : List Frame) (more : List Token) (hargs : args.Adds) :
    Call.readFrom i f outer (Token.layout p (o.lexemes args.lexemes) ++ more) =
      Call.readFrom (i + (o.lexemes args.lexemes).length)
        (f.receive (o.call p args.print (args.values (o.behind p)))) outer more := by
  have hlen : (o.lexemes args.lexemes).length = args.lexemes.length + 3 := by
    simp [lexemes]
  have henter := o.readFrom_enter args p (i + 1) (f :: outer) more hargs
  rw [o.layout_lexemes] at henter ⊢
  show Call.readFrom (i + 1) _ (f :: outer) (_ ++ more) = _
  rw [← o.finish_frame, hlen]
  refine henter.trans ?_
  show Call.readFrom (i + 1 + 1 + args.lexemes.length + 1) _ outer more = _
  congr 1
  omega

/-- Arguments and nested calls are added to the frame of the call around them. -/
theorem Args.adds (args : Args) : args.Adds := by
  induction args with
  | nil => exact fun _ _ _ _ _ => rfl
  | leaf a rest ih =>
    intro p i f outer more
    show Call.readFrom (i + 1 + 1)
      (((f.absorb (Piece.ofText p [' '])).withArg (Decode.callArg (decode .arg a.text))).absorb
        (Piece.ofText (p.after [' ']) a.text))
      outer (Token.layout ((p.after [' ']).after a.text) rest.lexemes ++ more) = _
    -- two tokens are read, the space and the argument, and then those of the others
    rw [a.callArg_decode, ih]
    congr 1
    · simp only [lexemes, List.length_cons]
      omega
    · simp [frame, Frame.absorb, Frame.withArg, parts, values, Piece.layout]
  | call o args rest ihargs ihrest =>
    intro p i f outer more
    rw [lexemes, Token.layout, List.cons_append, Token.layout_append, List.append_assoc]
    show Call.readFrom (i + 1) (f.absorb (Piece.ofText p [' '])) outer _ = _
    -- while the nested call is read, the frame of this one waits below
    rw [o.readFrom_layout args _ _ _ _ _ ihargs, ihrest]
    congr 1
    · simp only [List.length_cons, List.length_append]
      omega
    · simp [frame, Frame.absorb, Frame.receive, Frame.withArg, parts, values, Piece.layout,
        Operator.textOf_lexemes, textOf_lexemes, Operator.call]

-- ---------------------------------------------------------------------------
-- Formulas
-- ---------------------------------------------------------------------------

/-- The tokens of a call that stands alone are read as the call that was meant, without an error. -/
theorem Operator.read_layout (o : Operator) (args : Args) (p : Place) (more : List Token) :
    Call.read (Token.layout p (o.lexemes args.lexemes) ++ more) =
      ⟨(o.lexemes args.lexemes).length, o.call p args.print (args.values (o.behind p)), none⟩ := by
  have hlen : (o.lexemes args.lexemes).length = 1 + 1 + args.lexemes.length + 1 := by
    simp only [lexemes, List.length_cons, List.length_append, List.length_nil]
    omega
  have henter := o.readFrom_enter args p 1 [] more args.adds
  rw [o.layout_lexemes] at henter ⊢
  rw [← o.finish_frame, hlen]
  exact henter

/-- The name of a formula is read with its group, and a space is left before the call. -/
theorem Formula.readSetup_layout (f : Formula) :
    ∃ space : Token, space.kind = .space ∧ ∀ more,
      Formula.readSetup 1 none ((Token.layout Place.start f.setupLexemes).tail ++ more) =
        ⟨f.setupLexemes.length - 1, f.name.map Argument.content, true, none, space :: more⟩ := by
  rw [setupLexemes]
  cases h : f.name with
  | none => exact ⟨⟨Piece.ofText _ [' '], .space, .text [' ']⟩, rfl, fun _ => rfl⟩
  | some a =>
    let p := ((Place.start.after ['$', '$', '(']).after a.text).after [')']
    refine ⟨⟨Piece.ofText p [' '], .space, .text [' ']⟩, rfl, fun more => ?_⟩
    show Formula.readSetup (1 + 1 + 1) (Option.or none (decode .arg a.text).asText) _ = _
    rw [a.asText_decode (f.named a h)]
    rfl

/-- Behind the space in front of it, the call of a formula is read as it was meant. -/
theorem Formula.readProcedure_layout (f : Formula) (p : Place) (i : Nat) {space : Token}
    (hspace : space.kind = .space) (more : List Token) :
    Formula.readProcedure i
        (space :: (Token.layout p (f.operator.lexemes f.args.lexemes) ++ more)) =
      ⟨i + 1 + (f.operator.lexemes f.args.lexemes).length,
        some (f.operator.call p f.args.print (f.args.values (f.operator.behind p))), none⟩ := by
  have hskip (tokens : List Token) :
      Formula.readProcedure i (space :: tokens) = Formula.readProcedure (i + 1) tokens := by
    rw [Formula.readProcedure, hspace]
  have hcall (c : Reading Call)
      (hc : Call.read (Token.layout p (f.operator.lexemes f.args.lexemes) ++ more) = c) :
      Formula.readProcedure (i + 1)
          (Token.layout p (f.operator.lexemes f.args.lexemes) ++ more) =
        ⟨i + 1 + c.consumed, some c.node, c.error⟩ := by
    rw [← hc, f.operator.layout_lexemes]
    rfl
  rw [hskip, hcall _ (f.operator.read_layout f.args p more)]

/-- The tokens of a formula make up its value. -/
theorem Formula.read?_layout (f : Formula) (more : List Token) :
    Formula.read? (Token.layout Place.start f.lexemes ++ more) =
      some ⟨f.lexemes.length, ⟨Piece.ofText Place.start f.print, .formula, .formula f.value⟩,
        none⟩ := by
  have hlayout : Token.layout Place.start f.lexemes =
      Token.layout Place.start f.setupLexemes ++
        Token.layout (Place.start.after f.setup) (f.operator.lexemes f.args.lexemes) := by
    rw [lexemes, Token.layout_append, f.textOf_setupLexemes]
  obtain ⟨space, hspace, hsetup⟩ := f.readSetup_layout
  have hlen : f.setupLexemes.length - 1 + 1 + (f.operator.lexemes f.args.lexemes).length =
      f.lexemes.length := by
    rw [lexemes, List.length_append]
    rfl
  -- the group of the name has left the space to the reader of the call
  have hprocedure := f.readProcedure_layout (Place.start.after f.setup)
    (f.setupLexemes.length - 1) hspace more
  have htake : (Token.layout Place.start f.lexemes ++ more).take f.lexemes.length =
      Token.layout Place.start f.lexemes :=
    List.take_left' (Token.length_layout Place.start f.lexemes)
  have hnode (value : Value) :
      Token.synthesize .formula value (Token.layout Place.start f.lexemes) =
        ⟨Piece.ofText Place.start f.print, .formula, value⟩ := by
    rw [← f.textOf_lexemes]
    exact Token.synthesize_layout .formula value Place.start _ _
  have hopener : afterOpener? .formulaOpen (Token.layout Place.start f.lexemes ++ more) =
      some ((Token.layout Place.start f.setupLexemes).tail ++
        (Token.layout (Place.start.after f.setup) (f.operator.lexemes f.args.lexemes) ++
          more)) := by
    rw [hlayout, List.append_assoc]
    rfl
  rw [Formula.read?, hopener, Option.map_some]
  simp only [hsetup, hprocedure, if_true, hlen]
  rw [Reading.ofTokens, htake, hnode]
  rfl

end Written

-- ---------------------------------------------------------------------------
-- Notes
-- ---------------------------------------------------------------------------

/-- **A formula that is printed and parsed is the same formula**, whatever comes behind it. -/
theorem parse_print (k : Keywords) (f : Written.Formula) (rest : Text) :
    (parse k (f.print ++ rest)).formula.head? =
      some {
        toPiece := Piece.ofText Place.start f.print
        kind    := .formula
        value   := f.value
        error   := none } := by
  let opener : Token := ⟨Piece.ofText Place.start ['$', '$'], .formulaOpen, .text ['$', '$']⟩
  have htokens := (f.lexes (k := k) rest).tokenize
  generalize (Cursor.stepsFrom k [] _).map Step.token = more at htokens
  obtain ⟨later, hlater⟩ : ∃ later, Token.layout Place.start f.lexemes ++ more = opener :: later :=
    ⟨_, rfl⟩
  -- the formula is the first node, whatever the tokens behind it make up
  have hread := f.read?_layout more
  rw [hlater] at htokens hread
  have hnodes := nodes_cons_of_construct (t := opener) hread
  show ((nodes (tokenize k (f.print ++ rest))).filterMap Node.formula?).head? = _
  rw [htokens, hnodes]
  rfl

/-- The sum in front of a question mark. -/
theorem parse_print_sum :
    (parse Keywords.standard "$$(\"all of it\") (+ 1 (neg pi) -)?".toList).formula.head? =
      some {
        toPiece := Piece.ofText Place.start "$$(\"all of it\") (+ 1 (neg pi) -)".toList
        kind    := .formula
        value   := Written.Formula.sum.value
        error   := none } ∧
    Written.Formula.sum.value.name = some "all of it".toList ∧
    ∃ call negative, Written.Formula.sum.value.procedure = some call ∧
      call.operator = some "+".toList ∧
      call.args = [.value "1".toList, .call negative, .skip] ∧
      negative.operator = some "neg".toList ∧ negative.args = [.value Decode.piDigits] :=
  ⟨parse_print Keywords.standard Written.Formula.sum "?".toList, rfl, _, _, rfl, rfl, rfl, rfl, rfl⟩

end Jot
