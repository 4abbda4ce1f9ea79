import Jot.Construct.Reading
import Jot.Text.Blank

/-!
# Jot — reading reactions

A reaction quotes the message it is about: `Liked “see you there”`.
-/

namespace Jot

namespace ReactionKind

/-- Every way to react. -/
def all : List ReactionKind := [love, like, dislike, laugh, question, emphasize]

/-- The name under which a reaction is written. -/
def name : ReactionKind → String
  | love => "LOVE"
  | like => "LIKE"
  | dislike => "DISLIKE"
  | laugh => "LAUGH"
  | question => "QUESTION"
  | emphasize => "EMPHASIZE"

/-- The verb of a reaction, in upper case. -/
def verb : ReactionKind → String
  | love => "LOVED"
  | like => "LIKED"
  | dislike => "DISLIKED"
  | laugh => "LAUGHED AT"
  | question => "QUESTIONED"
  | emphasize => "EMPHASIZED"

/-- The upper case of a character as far as it is ASCII.  Besides the ASCII characters, ten
others have an upper case that is: the dotless i, the long s, the sharp s and seven ligatures. -/
def asciiUppercase? (c : Char) : Option Text :=
  if c.toNat < 0x80 then some [c.toUpper]
  else
    match c with
    | 'ı' => some ['I']
    | 'ſ' => some ['S']
    | 'ß' => some ['S', 'S']
    | 'ﬀ' => some ['F', 'F']
    | 'ﬁ' => some ['F', 'I']
    | 'ﬂ' => some ['F', 'L']
    | 'ﬃ' => some ['F', 'F', 'I']
    | 'ﬄ' => some ['F', 'F', 'L']
    | 'ﬅ' => some ['S', 'T']
    | 'ﬆ' => some ['S', 'T']
    | _ => none

/-- The upper case of a text, if all of it is ASCII. -/
def asciiUppercaseText? (t : Text) : Option Text := (t.mapM asciiUppercase?).map List.flatten

/-- The reaction that an opener such as `Liked “` announces; case does not matter. -/
def ofOpener? (opener : Text) : Option ReactionKind :=
  let verbText := Text.trimEnd (opener.reverse.dropWhile (· == '“')).reverse
  (asciiUppercaseText? verbText).bind fun upper => all.find? fun k => k.verb.toList == upper

end ReactionKind

namespace Reaction

/-- Reads the body of a reaction up to its closing quote; the last text in it counts. -/
def readBody (consumed : Nat) (body : Text) : List Token → Reading Text
  | [] => ⟨consumed, body, none⟩
  | t :: rest =>
    match t.kind with
    | .textBlob => readBody (consumed + 1) t.text rest
    | .reactionClose => ⟨consumed + 1, body, none⟩
    | .error => ⟨consumed + 1, body, some t⟩
    | _ => ⟨consumed, body, none⟩

/-- Reads the reaction that starts at the front of a token list. -/
def read? : List Token → Option (Reading Token)
  | [] => none
  | opener :: rest =>
    if opener.kind = .reactionOpen then
      let body := readBody 1 [] rest
      some (Reading.ofTokens .reaction
        (.reaction ⟨ReactionKind.ofOpener? opener.text, body.node⟩) (opener :: rest)
        body.consumed body.error)
    else none

end Reaction

end Jot
