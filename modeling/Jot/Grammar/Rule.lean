import Jot.Grammar.State
import Jot.Pattern
import Jot.Token.Kind
import Jot.Violation

/-!
# Jot — rules

Every state has an ordered list of rules; the first one whose pattern matches decides what
token is read and where the lexer goes next.  Rules that are offered in several states, above
all those for free text, are listed once.
-/

namespace Jot

/-- Where the lexer goes after a token. -/
inductive Transition where
  | stay
  /-- Go on in another state; going to `prose` forgets all states to return to. -/
  | next (s : State)
  /-- Go on in another state and remember this one. -/
  | push (s : State)
  /-- Return to the state remembered last. -/
  | pop
deriving DecidableEq

/-- What a matched text becomes. -/
inductive Emit where
  | token (k : TokenKind)
  /-- A word, unless it is a keyword. -/
  | keyword
  | error (k : ViolationKind)
deriving DecidableEq

/-- If `pattern` matches, emit a token and move on. -/
structure Rule where
  pattern : Pattern
  emit : Emit
  transition : Transition
deriving DecidableEq

/-- The violation and the state to go on in when no rule matches. -/
structure Recovery where
  kind : ViolationKind
  state : State
deriving DecidableEq

-- ---------------------------------------------------------------------------
-- The constructs that are one token
-- ---------------------------------------------------------------------------

namespace Marker

/-- The pattern of a marker. -/
def pattern : Marker → Pattern
  | tag => .tag
  | mention => .mention
  | cell => .cell
  | event => .event
  | url => .url
  | bean => .bean

/-- The token of a marker. -/
def tokenKind : Marker → TokenKind
  | tag => .tag
  | mention => .mention
  | cell => .cell
  | event => .event
  | url => .url
  | bean => .bean

/-- The violation when a marker is not followed by white space. -/
def violation : Marker → ViolationKind
  | tag => .tag
  | mention => .mention
  | cell => .cell
  | event => .event
  | url => .url
  | bean => .bean

end Marker

-- ---------------------------------------------------------------------------
-- The rules
-- ---------------------------------------------------------------------------

namespace Rule

/-- White space. -/
def space (tr : Transition) : Rule := ⟨.whitespace, .token .space, tr⟩

/-- An opening parenthesis. -/
def lparen (tr : Transition) : Rule := ⟨.lparen, .token .lparen, tr⟩

/-- A closing parenthesis. -/
def rparen (tr : Transition) : Rule := ⟨.rparen, .token .rparen, tr⟩

/-- The operator of a call. -/
def operator (tr : Transition) : Rule := ⟨.operator, .token .operator, tr⟩

/-- An argument of a call, or the name of a formula. -/
def arg (tr : Transition) : Rule := ⟨.argument, .token .arg, tr⟩

/-- A quoted name in the part of a link that `k` says. -/
def quoted (k : TokenKind) (tr : Transition) : Rule := ⟨.quotedName, .token k, tr⟩

/-- Everything up to the next blank is wrong. -/
def failure (k : ViolationKind) (s : State) : Rule := ⟨.symbol, .error k, .next s⟩

/-- A date in the header. -/
def dateTime : Rule := ⟨.dateTime, .token .date, .next .date⟩

/-- A folder in the header. -/
def folder (tr : Transition) : Rule := ⟨.folder, .token .folder, tr⟩

/-- A construct of one token. -/
def mark (m : Marker) : Rule := ⟨m.pattern, .token m.tokenKind, .push (.marked m)⟩

/-- What may occur in free text, white space apart.  Anything else is a word, which `word` says
how to read. -/
def prose (word : Emit) : List Rule :=
  [mark .tag, mark .mention, mark .cell, mark .event, mark .url, mark .bean,
    ⟨.link, .token .linkOpen, .push (.link .opened)⟩,
    ⟨.formulaOpen, .token .formulaOpen, .push (.formula .opened)⟩,
    ⟨.symbol, word, .next .prose⟩]

end Rule

open Rule

/-- The rules of the states inside a formula. -/
def FormulaState.rules : FormulaState → List Rule
  | opened =>
    [lparen (.next (.formula .name)), space .stay, failure .formulaOpen .prose]
  | name =>
    [rparen (.next (.formula .procedure)), space .stay, arg (.next (.formula .nameEnd)),
      failure .formulaSetupName .prose]
  | nameEnd =>
    [rparen (.next (.formula .procedure)), space .stay, failure .formulaSetupClose .prose]
  | procedure =>
    [lparen (.next (.formula .operator)), space .stay, failure .formulaFuncOpen .prose]
  | operator =>
    [Rule.operator (.next (.formula .arguments)), space .stay,
      failure .formulaFuncOperator .prose]
  | arguments =>
    [lparen (.push (.formula .innerOperator)), rparen (.next .prose), space .stay, arg .stay,
      failure .formulaFunc .prose]
  | innerOperator =>
    [Rule.operator (.next (.formula .innerArguments)), space .stay, failure .operator .prose]
  | innerArguments =>
    [rparen .pop, lparen (.push (.formula .innerOperator)), space .stay, arg .stay,
      failure .function .prose]

/-- The rules of the states inside a link. -/
def LinkState.rules : LinkState → List Rule
  | opened => [space .stay, lparen (.next (.link .href)), failure .linkOpen .prose]
  | href =>
    [space .stay, quoted .href (.next (.link .title)), rparen (.next (.link .image)),
      failure .linkSetup .prose]
  | title =>
    [space .stay, quoted .title (.next (.link .setupEnd)), rparen (.next (.link .image)),
      failure .linkSetupTitle .prose]
  | setupEnd => [space .stay, rparen (.next (.link .image)), failure .linkSetupClose .prose]
  | image => [space .stay, lparen (.next (.link .imageSource))] ++ Rule.prose (.token .word)
  | imageSource =>
    [space .stay, quoted .imageSource (.next (.link .imageTitle)), rparen (.next .prose),
      failure .linkImageUrl .prose]
  | imageTitle =>
    [space .stay, quoted .imageTitle (.next (.link .imageEnd)), rparen (.next .prose),
      failure .linkImageTitle .prose]
  | imageEnd => [space .stay, rparen (.next .prose), failure .linkImageClose .prose]

/-- The rules of a state, in the order in which they are tried. -/
def State.rules : State → List Rule
  | start =>
    [⟨.pin, .token .pin, .next .pin⟩, dateTime, Rule.folder (.next .folder),
      ⟨.reactionOpen, .token .reactionOpen, .next .reaction⟩] ++
      Rule.prose .keyword ++ [space .stay]
  | prose => Rule.prose (.token .word) ++ [space .stay]
  | pin => [space .stay, dateTime, Rule.folder (.next .folder)] ++ Rule.prose .keyword
  | date => [space .stay, Rule.folder (.next .folder)] ++ Rule.prose .keyword
  | folder =>
    [Rule.folder .stay, space (.next .folderEnd), failure .folder .folderEnd]
  | folderEnd => space (.next .prose) :: Rule.prose .keyword
  | marked m => [space (.next .prose), failure m.violation .prose]
  | reaction =>
    [⟨.reactionClose, .token .reactionClose, .next .prose⟩,
      ⟨.textBlob, .token .textBlob, .stay⟩,
      ⟨.remainder, .error .reaction, .next .prose⟩]
  | formula s => s.rules
  | link s => s.rules

/-- How a rule that reports a violation goes on. -/
def Rule.recovery? (r : Rule) : Option Recovery :=
  match r.emit, r.transition with
  | .error k, .next s => some ⟨k, s⟩
  | .error k, _ => some ⟨k, .prose⟩
  | _, _ => none

/-- What happens in a state when no rule matches: the same as in the first rule that reports a
violation.  States without one read what they cannot match as words. -/
def State.recovery (s : State) : Option Recovery := s.rules.findSome? Rule.recovery?

end Jot
