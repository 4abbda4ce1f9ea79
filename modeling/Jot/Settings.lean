import Jot.Json.Reader
import Jot.Keywords

/-!
# Jot — settings

Settings choose the keywords.  They are written as an object with the fields `todo_keywords`
and `done_keywords`, or as a list of up to two lists in that order; what is left out keeps its
standard value.
-/

namespace Jot

/-- Why a settings text is refused. -/
inductive SettingsError where
  /-- It is no JSON, or not of the right shape. -/
  | malformed
  | refused (r : Keywords.Refusal)
deriving DecidableEq

namespace Settings

/-- A list of strings. -/
def keywordList? : Json (Option Text) → Option (List Text)
  | .array items => items.mapM fun j =>
    match j with
    | .string s => s
    | _ => none
  | _ => none

/-- The list of keywords in a field, or the standard one; a field must not be repeated. -/
def field? (key : String) (standard : List Text)
    (fields : List (Option Text × Json (Option Text))) : Option (List Text) :=
  match fields.filter fun f => f.1 == some key.toList with
  | [] => some standard
  | [f] => keywordList? f.2
  | _ => none

/-- The keywords that a value chooses.  Fields of other names may hold anything, but every name
must spell a text. -/
def keywords? : Json (Option Text) → Option Keywords
  | .object fields =>
    if fields.all fun f => f.1.isSome then do
      let todo ← field? "todo_keywords" Keywords.standard.todo fields
      let done ← field? "done_keywords" Keywords.standard.done fields
      some ⟨todo, done⟩
    else none
  | .array [] => some Keywords.standard
  | .array [todo] => do some ⟨← keywordList? todo, Keywords.standard.done⟩
  | .array [todo, done] => do some ⟨← keywordList? todo, ← keywordList? done⟩
  | _ => none

/-- Reads the keywords from a settings text. -/
def read (t : Text) : Except SettingsError Keywords :=
  match (Json.read? t).bind keywords? with
  | none => .error .malformed
  | some k =>
    match k.refusal? with
    | some r => .error (.refused r)
    | none => .ok k

end Settings

end Jot
