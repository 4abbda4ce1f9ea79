/-!
# Jot — kinds of token

Most kinds are read by the lexer.  The last three, `formula`, `link` and `reaction`, name nodes
that stand for a whole run of tokens.
-/

namespace Jot

/-- What a token is. -/
inductive TokenKind where
  | word
  | space
  | todo
  | done
  | pin
  | date
  | folder
  | tag
  | mention
  | cell
  | event
  | url
  | bean
  | linkOpen
  | href
  | title
  | imageSource
  | imageTitle
  | formulaOpen
  | operator
  | arg
  | lparen
  | rparen
  | reactionOpen
  | reactionClose
  | textBlob
  | error
  | formula
  | link
  | reaction
deriving DecidableEq

namespace TokenKind

/-- Every kind of token. -/
def all : List TokenKind :=
  [word, space, todo, done, pin, date, folder, tag, mention, cell, event, url, bean, linkOpen,
    href, title, imageSource, imageTitle, formulaOpen, operator, arg, lparen, rparen,
    reactionOpen, reactionClose, textBlob, error, formula, link, reaction]

/-- The name under which a kind is written. -/
def name : TokenKind → String
  | word => "word"
  | space => "space"
  | todo => "todo"
  | done => "done"
  | pin => "pin"
  | date => "date"
  | folder => "folder"
  | tag => "tag"
  | mention => "mention"
  | cell => "cell"
  | event => "event"
  | url => "url"
  | bean => "bean"
  | linkOpen => "link_open"
  | href => "href"
  | title => "title"
  | imageSource => "img-src"
  | imageTitle => "img-title"
  | formulaOpen => "formula_open"
  | operator => "operator"
  | arg => "arg"
  | lparen => "lparen"
  | rparen => "rparen"
  | reactionOpen => "reaction_open"
  | reactionClose => "reaction_close"
  | textBlob => "text_blob"
  | error => "error"
  | formula => "formula"
  | link => "link"
  | reaction => "reaction"

/-- The kind written under a name. -/
def ofName? (s : String) : Option TokenKind := all.find? (·.name == s)

/-- Words and white space: neighbours of these kinds are shown as one chunk. -/
def isPlainText : TokenKind → Bool
  | word | space => true
  | _ => false

/-- Kinds that say something about the note as a whole and are no part of its body. -/
def isHeader : TokenKind → Bool
  | date | folder | todo | done | pin => true
  | _ => false

end TokenKind

end Jot
