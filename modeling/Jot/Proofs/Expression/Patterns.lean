import Jot.Proofs.Expression.Shapes

/-!
# Jot — patterns and expressions

Every pattern of the lexer that has an expression takes the preferred match of that expression,
unless the preferred match is empty.

* `Pattern.computes_recognizer` — what a pattern recognises, pattern by pattern;
* `Pattern.take?_eq_filter_match?` — what a pattern takes;
* `Pattern.take?_follows` — every pattern follows its expression, and only the rest of a text and
  the body of a reaction have none.
-/

namespace Jot

-- ---------------------------------------------------------------------------
-- The table
-- ---------------------------------------------------------------------------

namespace Pattern

open Recognizer

variable {p : Pattern} {e : Regex}

/-- A cell: from its amount on, every part can be left out, so nothing is given back. -/
theorem computes_cell : Computes cell.recognizer (.sequence [
    .char '%', .label, .optional (.seq (.char ':') (.optional .signedNumber)),
    .optional (.seq (.char ',') .label)]) := by
  -- the parts are put together from the last one on
  have hunit := (computes_optional
    (computes_one_both (p := (· == ',')) Label.computes_recognize)).last
  have hunit' := Regex.total_seq (Regex.total_optional (.seq (.char ',') .label)) Regex.total_empty
  have hvalue := computes_optional
    (computes_one_both (p := (· == ':')) (computes_optional computes_signedNumber))
  have hrest := hvalue.both hunit (Regex.settled_of_total hunit')
  have hrest' := Regex.total_seq
    (Regex.total_optional (.seq (.char ':') (.optional .signedNumber))) hunit'
  exact computes_one_both
    (Label.computes_recognize.both hrest (Regex.settled_of_total hrest'))

/-- An event has its ellipsis behind the label or in front of it. -/
theorem computes_event : Computes event.recognizer (.alt
    (.sequence [.char '!', .label, .optional .ellipsis]) (.seq .ellipsis .label)) := by
  have hend := (computes_optional computes_ellipsis).last
  have hend' := Regex.total_seq (Regex.total_optional .ellipsis) Regex.total_empty
  have hleft := computes_one_both (p := (· == '!'))
    (Label.computes_recognize.both hend (Regex.settled_of_total hend'))
  have hright := computes_ellipsis.both Label.computes_recognize
    (Regex.settled_of_definite definite_ellipsis)
  exact computes_firstOf_cons hleft (computes_firstOf_singleton hright)

/-- A bean is a sign, a label and perhaps an amount. -/
theorem computes_bean : Computes bean.recognizer (.sequence [
    .one fun c => c == '+' || c == '-', .label, .optional (.seq (.char ':') .number)]) := by
  have hamount := (computes_optional (computes_one_both (p := (· == ':')) computes_number)).last
  have hamount' :=
    Regex.total_seq (Regex.total_optional (.seq (.char ':') .number)) Regex.total_empty
  exact computes_one_both
    (Label.computes_recognize.both hamount (Regex.settled_of_total hamount'))

/-- An argument is tried as a label first, then as a number, and then as a dash. -/
theorem computes_argument :
    Computes argument.recognizer (.choice .label [.signedNumber, .char '-']) :=
  computes_firstOf_cons Label.computes_recognize
    (computes_firstOf_cons computes_signedNumber (computes_firstOf_singleton (computes_char '-')))

/-- A pattern recognises the preferred match of its expression. -/
theorem computes_recognizer (h : p.expression? = some e) : Computes p.recognizer e := by
  -- two patterns have no expression, and every other one is a case of its own
  cases p with
  | remainder | textBlob => contradiction
  | whitespace | symbol => cases h; exact computes_many1 _
  | pin => cases h; exact computes_one_both (computes_many _)
  | dateTime => cases h; exact computes_dateTime
  | folder => cases h; exact computes_one_both (computes_optional Label.computes_recognize)
  | reactionOpen => cases h; exact computes_reactionOpener
  | tag | mention => cases h; exact computes_one_both Label.computes_recognize
  | cell => cases h; exact computes_cell
  | event => cases h; exact computes_event
  | url => cases h; exact computes_webAddress
  | bean => cases h; exact computes_bean
  | link | formulaOpen => cases h; exact computes_literal _
  | reactionClose | lparen | rparen => cases h; exact computes_char _
  | operator => cases h; exact computes_operatorName
  | argument => cases h; exact computes_argument
  | quotedName => cases h; exact Quoted.computes_nameOf _

/-- A pattern takes the preferred match of its expression, unless that is empty. -/
theorem take?_eq_filter_match? (h : p.expression? = some e) (t : Text) :
    p.take? t = (e.match? t).filter (0 < ·) := by
  rw [take?, computes_recognizer h t]

end Pattern

-- ---------------------------------------------------------------------------
-- Patterns follow their expressions
-- ---------------------------------------------------------------------------

/-- How what is taken from the start of a text follows from an expression. -/
structure Follows (e : Regex) (t : Text) (taken : Option Nat) : Prop where
  /-- The ends that are tried are all the matches at the start of the text. -/
  complete : ∀ n, n ∈ e.ends t ↔ n ≤ t.length ∧ e.Matches (t.take n)
  /-- The first of them is taken, unless it is empty. -/
  preferred : taken = (e.ends t).head?.filter (0 < ·)

/-- **A pattern takes the preferred match of its expression**, and nothing where that is empty or
where there is no match.  The rest of a text and the body of a reaction are no expressions. -/
theorem Pattern.take?_follows (p : Pattern) (t : Text) :
    match p.expression? with
    | some e => Follows e t (p.take? t)
    | none => p = .remainder ∨ p = .textBlob := by
  cases h : p.expression? with
  | some e => exact ⟨fun _ => Regex.mem_ends_iff, take?_eq_filter_match? h t⟩
  | none => cases p <;> first | contradiction | exact .inl rfl | exact .inr rfl

/-- The point of `10.` is no part of the number. -/
example : Pattern.argument.take? "10.".toList = some 2 := by decide

end Jot
