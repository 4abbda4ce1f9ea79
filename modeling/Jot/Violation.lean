import Jot.Text.Literal

/-!
# Jot — violations

What is wrong with a stretch of a note.  A violation is never an exception: it is the value of
an error token, and a record collects the violations of its note.
-/

namespace Jot

/-- The rule that a stretch of text breaks, named after the construct it belongs to. -/
inductive ViolationKind where
  | folder
  | tag
  | mention
  | cell
  | event
  | url
  | bean
  | reaction
  | formulaOpen
  | formulaSetupName
  | formulaSetupClose
  | formulaFuncOpen
  | formulaFuncOperator
  | formulaFunc
  | operator
  | function
  | linkOpen
  | linkSetup
  | linkSetupTitle
  | linkSetupClose
  | linkImageUrl
  | linkImageTitle
  | linkImageClose
  | date
deriving DecidableEq

namespace ViolationKind

/-- Every kind of violation. -/
def all : List ViolationKind :=
  [folder, tag, mention, cell, event, url, bean, reaction, formulaOpen, formulaSetupName,
    formulaSetupClose, formulaFuncOpen, formulaFuncOperator, formulaFunc, operator, function,
    linkOpen, linkSetup, linkSetupTitle, linkSetupClose, linkImageUrl, linkImageTitle,
    linkImageClose, date]

/-- The name under which a kind is reported. -/
def name : ViolationKind → String
  | folder => "INVALID_FOLDER_FORMAT"
  | tag => "INVALID_TAG_FORMAT"
  | mention => "INVALID_MENTION_FORMAT"
  | cell => "INVALID_CELL_FORMAT"
  | event => "INVALID_EVENT_FORMAT"
  | url => "INVALID_URL_FORMAT"
  | bean => "INVALID_BEAN_FORMAT"
  | reaction => "INVALID_REACTION_FORMAT"
  | formulaOpen => "INVALID_FORMULA_OPEN_FORMAT"
  | formulaSetupName => "INVALID_FORMULA_SETUP_NAME_FORMAT"
  | formulaSetupClose => "INVALID_FORMULA_SETUP_CLOSE_FORMAT"
  | formulaFuncOpen => "INVALID_FORMULA_FUNC_OPEN_FORMAT"
  | formulaFuncOperator => "INVALID_FORMULA_FUNC_OPERATOR_FORMAT"
  | formulaFunc => "INVALID_FORMULA_FUNC_FORMAT"
  | operator => "INVALID_OPERATOR_FORMAT"
  | function => "INVALID_FUNCTION_FORMAT"
  | linkOpen => "INVALID_LINK_OPEN_FORMAT"
  | linkSetup => "INVALID_LINK_SETUP_FORMAT"
  | linkSetupTitle => "INVALID_LINK_SETUP_TITLE_FORMAT"
  | linkSetupClose => "INVALID_LINK_SETUP_CLOSE_FORMAT"
  | linkImageUrl => "INVALID_LINK_IMAGE_URL_FORMAT"
  | linkImageTitle => "INVALID_LINK_IMAGE_TITLE_FORMAT"
  | linkImageClose => "INVALID_LINK_IMAGE_CLOSE_FORMAT"
  | date => "INVALID_DATE_FORMAT"

/-- The kind reported under a name. -/
def ofName? (s : String) : Option ViolationKind := all.find? (·.name == s)

/-- The remark that goes with every violation of a kind. -/
def remark? : ViolationKind → Option String
  | reaction => some "Missing end quote."
  | _ => none

end ViolationKind

/-- A broken rule, the text that breaks it, and a remark for the writer of the note. -/
structure Violation where
  kind : ViolationKind
  text : Text
  message : Option Text
deriving DecidableEq

namespace Violation

/-- A violation with the usual remark of its kind. -/
def of (kind : ViolationKind) (text : Text) : Violation :=
  { kind, text, message := kind.remark?.map Text.ofString }

/-- The same violation with another remark. -/
def withMessage (v : Violation) (message : Text) : Violation :=
  { v with message := some message }

/-- One line for a log: the kind and the quoted text. -/
def display (v : Violation) : Text :=
  Text.ofString v.kind.name ++ [':', ' '] ++ Text.literal v.text

end Violation

end Jot
