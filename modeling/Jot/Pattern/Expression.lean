import Jot.Pattern
import Jot.Regex

/-!
# Jot — patterns as regular expressions

What each pattern means, written as the regular expression that it stands for.  The rest of a
text and the body of a reaction depend on where the text ends and have no expression.
-/

namespace Jot

namespace Regex

/-- Any decimal digit. -/
def digit : Regex := one Char.isDigit

/-- A name in quotes over a class of characters; a backslash goes with the character after
it. -/
def quotedName (allowed : Char → Bool) : Regex :=
  sequence [
    char '"',
    star (alt (one fun c => c != '"' && c != '\\' && allowed c)
      (seq (char '\\') (one allowed))),
    char '"']

/-- A label, quoted or bare. -/
def label : Regex :=
  alt (quotedName (· != '\n')) (seq (one Label.isLead) (upTo Label.tailLimit (one Label.isTail)))

/-- A decimal number. -/
def number : Regex :=
  seq
    (alt (sequence [star digit, optional (char '.'), plus digit])
      (sequence [plus digit, optional (char '.'), star digit]))
    (optional (sequence [
      one fun c => c == 'e' || c == 'E',
      optional (one fun c => c == '+' || c == '-'),
      plus digit]))

/-- A decimal number that may have a minus sign. -/
def signedNumber : Regex := seq (optional (char '-')) number

/-- The mark of an open end. -/
def ellipsis : Regex := alt (char '…') (times 3 (char '.'))

/-- A digit from a list. -/
def digitOf (digits : List Char) : Regex := one digits.contains

/-- A day and perhaps a time. -/
def dateTime : Regex :=
  sequence [
    times 4 digit, optional (char '-'),
    alt (seq (char '1') (digitOf ['0', '1', '2']))
      (seq (char '0') (one fun c => c.isDigit && c != '0')),
    optional (char '-'),
    choice (seq (char '3') (digitOf ['0', '1'])) [
      seq (char '0') (one fun c => c.isDigit && c != '0'),
      seq (digitOf ['1', '2']) digit],
    optional (sequence [
      optional (one fun c => isBlank c || c == 'T'),
      alt (seq (char '2') (digitOf ['0', '1', '2', '3'])) (seq (digitOf ['0', '1']) digit),
      optional (char ':'),
      digitOf ['0', '1', '2', '3', '4', '5'], digit,
      optional (char ':'),
      optional (seq (digitOf ['0', '1', '2', '3', '4', '5']) digit),
      optional (seq (char '.') (plus digit)),
      optional (char 'Z')])]

/-- A URL. -/
def webAddress : Regex :=
  seq
    (alt (sequence [one Char.isAlpha, star (one Recognizer.isSchemeTail), literal [':', '/', '/']])
      (literal ['w', 'w', 'w', '.']))
    (plus (one Recognizer.isUrlChar))

/-- The verb that opens a reaction. -/
def reactionVerb : Regex :=
  choice (literal "Loved".toList)
    (["Liked", "Disliked", "Laughed at", "Emphasized", "Questioned"].map fun v =>
      literal v.toList)

end Regex

open Regex in
/-- The regular expression of a pattern, where it has one. -/
def Pattern.expression? : Pattern → Option Regex
  | whitespace => some (plus (one isBlank))
  | symbol => some (plus (one fun c => !(isBlank c)))
  | remainder => none
  | pin => some (seq (char '*') (star digit))
  | dateTime => some Regex.dateTime
  | folder => some (seq (char '/') (optional label))
  | reactionOpen => some (seq reactionVerb (literal [' ', '“']))
  | reactionClose => some (char '”')
  | textBlob => none
  | tag => some (seq (char '#') label)
  | mention => some (seq (char '@') label)
  | cell =>
    some (sequence [
      char '%', label, optional (seq (char ':') (optional signedNumber)),
      optional (seq (char ',') label)])
  | event =>
    some (alt (sequence [char '!', label, optional ellipsis]) (seq ellipsis label))
  | url => some webAddress
  | bean =>
    some (sequence [
      one fun c => c == '+' || c == '-', label, optional (seq (char ':') number)])
  | link => some (literal [':', '/', '/'])
  | formulaOpen => some (literal ['$', '$'])
  | lparen => some (char '(')
  | rparen => some (char ')')
  | operator =>
    some (seq (one Recognizer.isOperatorChar)
      (upTo Recognizer.operatorTailLimit (one Recognizer.isOperatorChar)))
  | argument => some (choice label [signedNumber, char '-'])
  | quotedName => some (Regex.quotedName fun _ => true)

end Jot
