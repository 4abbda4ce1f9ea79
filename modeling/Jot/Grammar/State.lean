/-!
# Jot — lexer states

Where in a note the lexer stands.  The states at the start of a note keep the order of its
header, `prose` is free text, and every construct that is more than one token has states of its
own, named for what the lexer waits for.
-/

namespace Jot

/-- The constructs that are a single token and must be followed by white space. -/
inductive Marker where
  | tag
  | mention
  | cell
  | event
  | url
  | bean
deriving DecidableEq

/-- Positions in a formula `$$(name) (operator argument …)`. -/
inductive FormulaState where
  /-- Before the parenthesis of the name. -/
  | opened
  /-- Before the name. -/
  | name
  /-- Behind the name. -/
  | nameEnd
  /-- Before the parenthesis of the procedure. -/
  | procedure
  /-- Before the operator of the procedure. -/
  | operator
  /-- Among the arguments of the procedure. -/
  | arguments
  /-- Before the operator of a nested call. -/
  | innerOperator
  /-- Among the arguments of a nested call. -/
  | innerArguments
deriving DecidableEq

/-- Positions in a link `://("href" "title") ("source" "title")`. -/
inductive LinkState where
  /-- Before the first parenthesis. -/
  | opened
  /-- Before the target. -/
  | href
  /-- Before the title. -/
  | title
  /-- Behind the title. -/
  | setupEnd
  /-- Behind the first group, where an image or anything else may come. -/
  | image
  /-- Before the source of the image. -/
  | imageSource
  /-- Before the title of the image. -/
  | imageTitle
  /-- Behind the title of the image. -/
  | imageEnd
deriving DecidableEq

/-- The states of the lexer. -/
inductive State where
  /-- The start of a note. -/
  | start
  /-- Free text. -/
  | prose
  /-- Behind a pin. -/
  | pin
  /-- Behind a date. -/
  | date
  /-- Inside a chain of folders. -/
  | folder
  /-- Behind the folders. -/
  | folderEnd
  /-- Behind a construct that is one token. -/
  | marked (m : Marker)
  /-- Inside a reaction. -/
  | reaction
  | formula (s : FormulaState)
  | link (s : LinkState)
deriving DecidableEq

namespace State

/-- Every state. -/
def all : List State :=
  [start, prose, pin, date, folder, folderEnd, marked .tag, marked .mention, marked .cell,
    marked .event, marked .url, marked .bean, reaction, formula .opened, formula .name,
    formula .nameEnd, formula .procedure, formula .operator, formula .arguments,
    formula .innerOperator, formula .innerArguments, link .opened, link .href, link .title,
    link .setupEnd, link .image, link .imageSource, link .imageTitle, link .imageEnd]

theorem mem_all (s : State) : s ∈ all := by
  cases s with
  | marked m => cases m <;> decide
  | formula s => cases s <;> decide
  | link s => cases s <;> decide
  | _ => decide

/-- The name under which a state is logged. -/
def name : State → String
  | start => "main"
  | prose => "standard"
  | pin => "pin"
  | date => "date"
  | folder => "folder"
  | folderEnd => "folder_standard_start"
  | marked .tag => "tag"
  | marked .mention => "mention"
  | marked .cell => "cell"
  | marked .event => "event"
  | marked .url => "url"
  | marked .bean => "bean"
  | reaction => "reaction"
  | formula .opened => "formula-open"
  | formula .name => "formula-setup-name"
  | formula .nameEnd => "formula-setup-close"
  | formula .procedure => "formula-func-open"
  | formula .operator => "formula-func-operator"
  | formula .arguments => "formula-func"
  | formula .innerOperator => "operator"
  | formula .innerArguments => "func"
  | link .opened => "link-open"
  | link .href => "link-setup-url"
  | link .title => "link-setup-title"
  | link .setupEnd => "link-setup-close"
  | link .image => "link-img-open"
  | link .imageSource => "link-img-url"
  | link .imageTitle => "link-img-title"
  | link .imageEnd => "link-img-close"

/-- The state of a name. -/
def ofName? (s : String) : Option State := all.find? (·.name == s)

end State

end Jot
