import Jot.Text.Lowercase
import Jot.Text.Blank
import Jot.Token.Kind

/-!
# Jot — keywords

Which words at the start of a note mark it as a task to do or a task done.  Case does not
matter, and a word that is on both lists is a task to do.
-/

namespace Jot

/-- The words that mark tasks. -/
structure Keywords where
  todo : List Text
  done : List Text
deriving DecidableEq

namespace Keywords

/-- The keywords of a user who has not chosen any. -/
def standard : Keywords := ⟨["todo".toList], ["done".toList]⟩

/-- Whether a word is on a list, whatever its case. -/
def lists (list : List Text) (word : Text) : Bool :=
  list.any fun k => Text.lowercase k == Text.lowercase word

/-- The kind of token that a word is marked as, if it is a keyword. -/
def kind? (k : Keywords) (word : Text) : Option TokenKind :=
  if lists k.todo word then some .todo
  else if lists k.done word then some .done
  else none

/-- Why a choice of keywords is refused. -/
inductive Refusal where
  | emptyTodo
  | emptyDone
deriving DecidableEq

/-- The first list that holds an empty or blank keyword. -/
def refusal? (k : Keywords) : Option Refusal :=
  if k.todo.any Text.isBlank then some .emptyTodo
  else if k.done.any Text.isBlank then some .emptyDone
  else none

/-- The message that goes with a refusal. -/
def Refusal.message : Refusal → String
  | emptyTodo => "`todo_keywords` contains an empty keyword"
  | emptyDone => "`done_keywords` contains an empty keyword"

end Keywords

end Jot
