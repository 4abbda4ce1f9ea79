import Jot.Shapes

/-!
# Jot — patterns

The patterns by which the lexer cuts a note into tokens.  Each is tried at the start of the
remaining text only and answers with the number of characters it takes (`Pattern.take?`), never
with zero.
-/

namespace Jot

open Recognizer

/-- The patterns of the lexer. -/
inductive Pattern where
  | whitespace
  | symbol
  | remainder
  | pin
  | dateTime
  | folder
  | reactionOpen
  | reactionClose
  | textBlob
  | tag
  | mention
  | cell
  | event
  | url
  | bean
  | link
  | formulaOpen
  | lparen
  | rparen
  | operator
  | argument
  | quotedName
deriving DecidableEq

namespace Pattern

/-- Every pattern. -/
def all : List Pattern :=
  [whitespace, symbol, remainder, pin, dateTime, folder, reactionOpen, reactionClose, textBlob,
    tag, mention, cell, event, url, bean, link, formulaOpen, lparen, rparen, operator, argument,
    quotedName]

/-- The name of a pattern. -/
def name : Pattern → String
  | whitespace => "Whitespace"
  | symbol => "Symbol"
  | remainder => "Remainder"
  | pin => "Pin"
  | dateTime => "DateTime"
  | folder => "Folder"
  | reactionOpen => "ReactionOpen"
  | reactionClose => "ReactionClose"
  | textBlob => "TextBlob"
  | tag => "Tag"
  | mention => "Mention"
  | cell => "Cell"
  | event => "Event"
  | url => "Url"
  | bean => "Bean"
  | link => "Link"
  | formulaOpen => "FormulaOpen"
  | lparen => "Lparen"
  | rparen => "Rparen"
  | operator => "Operator"
  | argument => "Argument"
  | quotedName => "QuotedName"

/-- The pattern of a name. -/
def ofName? (s : String) : Option Pattern := all.find? (·.name == s)

/-- What a pattern recognises. -/
def recognizer : Pattern → Recognizer
  | whitespace => many1 isBlank
  | symbol => many1 fun c => !(isBlank c)
  | remainder => fun t => some t.length
  | pin => both (char '*') (many Char.isDigit)
  | dateTime => Recognizer.dateTime
  | folder => both (char '/') (optional Label.recognize)
  | reactionOpen => reactionOpener
  | reactionClose => char '”'
  | textBlob => quotedBody
  | tag => both (char '#') Label.recognize
  | mention => both (char '@') Label.recognize
  | cell =>
    sequence [
      char '%', Label.recognize,
      optional (both (char ':') (optional signedNumber)),
      optional (both (char ',') Label.recognize)]
  | event =>
    firstOf [
      sequence [char '!', Label.recognize, optional ellipsis],
      both ellipsis Label.recognize]
  | url => webAddress
  | bean =>
    sequence [
      one fun c => c == '+' || c == '-', Label.recognize, optional (both (char ':') number)]
  | link => literal [':', '/', '/']
  | formulaOpen => literal ['$', '$']
  | lparen => char '('
  | rparen => char ')'
  | operator => operatorName
  | argument => firstOf [Label.recognize, signedNumber, char '-']
  | quotedName => Quoted.name

/-- The number of characters that a pattern takes from the start of a text. -/
def take? (p : Pattern) (t : Text) : Option Nat := (p.recognizer t).filter (0 < ·)

/-- A pattern never takes nothing. -/
theorem take?_pos {p : Pattern} {t : Text} {n : Nat} (h : p.take? t = some n) : 0 < n := by
  simp only [take?, Option.filter_eq_some_iff, decide_eq_true_eq] at h
  exact h.2

theorem bounded_recognizer (p : Pattern) : Bounded p.recognizer := by
  have label := Label.bounded_recognize
  cases p with
  | whitespace | symbol => exact bounded_many1 _
  | remainder =>
    intro t n h
    cases h
    exact Nat.le_refl _
  | pin => exact bounded_both (bounded_char _) (bounded_many _)
  | dateTime => exact bounded_dateTime
  | folder => exact bounded_both (bounded_char _) (bounded_optional label)
  | reactionOpen => exact bounded_reactionOpener
  | textBlob => exact bounded_quotedBody
  | tag | mention => exact bounded_both (bounded_char _) label
  | cell =>
    have unit := bounded_optional (bounded_both (bounded_char ',') label)
    exact bounded_sequence_cons (bounded_char _) (by grind)
  | event =>
    exact bounded_firstOf_cons (by grind)
      (bounded_firstOf_cons (bounded_both bounded_ellipsis label) bounded_firstOf_nil)
  | url => exact bounded_webAddress
  | bean =>
    have amount := bounded_optional (bounded_both (bounded_char ':') bounded_number)
    exact bounded_sequence_cons (bounded_one _) (by grind)
  | link | formulaOpen => exact bounded_literal _
  | reactionClose | lparen | rparen => exact bounded_char _
  | operator => exact bounded_operatorName
  | argument => exact bounded_firstOf_cons label (by grind)
  | quotedName => exact Quoted.bounded_nameOf _

/-- A pattern takes no more than there is. -/
theorem take?_le {p : Pattern} {t : Text} {n : Nat} (h : p.take? t = some n) : n ≤ t.length := by
  simp only [take?, Option.filter_eq_some_iff] at h
  exact p.bounded_recognizer t n h.1

end Pattern

end Jot
