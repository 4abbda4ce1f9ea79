import Jot.Files
import Jot.Settings
import Jot.Text.Literal

/-!
# Jot — progress of a command

A command reports what it is doing and may fail on the way.  Failures are kept as causes; their
words, outermost cause first, are in `Failure.messages`.
-/

namespace Jot

/-- Why a command fails. -/
inductive Failure where
  /-- The settings file cannot be read. -/
  | settingsFile (path : Text) (why : FileError)
  /-- The settings file is read and refused. -/
  | settingsText (path : Text) (why : SettingsError)
  /-- Standard input cannot be read. -/
  | standardInput (why : FileError)
  /-- An input leads nowhere. -/
  | resolving (path : Text) (why : FileError)
  /-- A note file cannot be read. -/
  | reading (path : Text) (why : FileError)
  /-- The inputs hold no note. -/
  | noNotes

namespace Failure

/-- What is wrong with settings. -/
def settingsMessage : SettingsError → String
  | .malformed => "invalid settings"
  | .refused r => r.message

/-- The failure and its causes in words. -/
def messages : Failure → List Text
  | settingsFile path why =>
    ["loading settings ".toList ++ path.literal,
      "failed to read settings from ".toList ++ path.literal, why.message.toList]
  | settingsText path why =>
    ["loading settings ".toList ++ path.literal, (settingsMessage why).toList]
  | standardInput why => ["reading stdin".toList, why.message.toList]
  | resolving path why =>
    ["resolving path ".toList ++ path.literal, why.message.toList]
  | reading path why => ["reading ".toList ++ path.literal, why.message.toList]
  | noNotes => ["no note files found in the provided inputs".toList]

/-- The causes of a failure, numbered when there are several. -/
def renderCauses : List Text → List Text
  | [] => []
  | [cause] => [[], "Caused by:".toList, "    ".toList ++ cause]
  | causes =>
    [] :: "Caused by:".toList ::
      causes.zipIdx.map fun c => "    ".toList ++ Text.ofNat c.2 ++ ": ".toList ++ c.1

/-- The lines that report a failure. -/
def render (f : Failure) : List Text :=
  match f.messages with
  | [] => []
  | message :: causes => ("Error: ".toList ++ message) :: renderCauses causes

end Failure

/-- What a command has said so far, and how it ended. -/
structure Progress (α : Type) where
  lines : List Text
  result : Except Failure α

namespace Progress

/-- Says something. -/
def say (line : Text) : Progress Unit := ⟨[line], .ok ()⟩

/-- Says several things. -/
def sayAll (lines : List Text) : Progress Unit := ⟨lines, .ok ()⟩

/-- Fails. -/
def fail {α : Type} (f : Failure) : Progress α := ⟨[], .error f⟩

/-- A step that may fail, with the failure that it amounts to. -/
def attempt {α ε : Type} (r : Except ε α) (f : ε → Failure) : Progress α :=
  ⟨[], r.mapError f⟩

instance : Monad Progress where
  pure a := ⟨[], .ok a⟩
  bind p f :=
    match p.result with
    | .error e => ⟨p.lines, .error e⟩
    | .ok a => ⟨p.lines ++ (f a).lines, (f a).result⟩

end Progress

end Jot
