import Jot.Token.Value

/-!
# Jot — decoding

From the text of a token to its value, by kind.  Decoding never fails: a text that the pattern
of the kind would not take is cut at the same marks.
-/

namespace Jot

namespace Decode

/-- The label behind the mark of a tag, a mention or a folder. -/
def markedLabel (t : Text) : Text := Label.content (t.drop 1)

/-- The path of a folder. -/
def folder (t : Text) : Text := '/' :: markedLabel t

/-- The rank of a pin; without digits it is zero. -/
def pin (t : Text) : Text :=
  match t.drop 1 with
  | [] => ['0']
  | digits => digits

/-- An argument; a dash stands for one that is left out. -/
def arg (t : Text) : Option Text := if t = ['-'] then none else some t.dequote

/-- Whether a text names the number π. -/
def isPi (t : Text) : Bool :=
  t == ['🥧'] || Text.sameIgnoringAsciiCase t ['p', 'i']

/-- The digits of π. -/
def piDigits : Text := "3.141592653589793".toList

/-- The argument that a value makes in a call. -/
def callArg (v : Value) : Arg :=
  match v.asText with
  | some t => .value (if isPi t then piDigits else t)
  | none => .skip

end Decode

/-- The value of a token of some kind. -/
def decode (kind : TokenKind) (t : Text) : Value :=
  match kind with
  | .pin => .text (Decode.pin t)
  | .date => .date (DateValue.read t)
  | .folder => .text (Decode.folder t)
  | .tag | .mention => .text (Decode.markedLabel t)
  | .cell => .cell (Cell.read t)
  | .event => .event (Event.read t)
  | .bean => .bean (Bean.read t)
  | .arg => .arg (Decode.arg t)
  | .href | .title | .imageSource | .imageTitle => .text t.dequote
  | _ => .text t

end Jot
