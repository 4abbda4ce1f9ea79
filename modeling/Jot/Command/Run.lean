import Jot.Command.Arguments
import Jot.Command.Sources
import Jot.Encode
import Jot.Json.Pretty
import Jot.Notes

/-!
# Jot — the command

From the arguments of a command and the world it runs in to what it writes.  Everything is
computed before anything is written, so a command that fails has no output but its report.
-/

namespace Jot

/-- What a command writes and the code it ends with. -/
structure Output where
  exit : Nat
  stdout : Text
  stderr : Text

/-- Lines as they are written. -/
def unlines (lines : List Text) : Text := lines.flatMap (· ++ ['\n'])

/-- Reports that are written when progress is shown. -/
def debugLines (log : List LogLine) : List Text :=
  (log.filter fun l => l.level = .debug).map LogLine.render

-- ---------------------------------------------------------------------------
-- Jobs
-- ---------------------------------------------------------------------------

/-- The tokens of a source. -/
structure Tokenized where
  source : Source
  steps : List Step

namespace Tokenized

/-- The tokens in the order of the source. -/
def tokens (t : Tokenized) : List Token := t.steps.map Step.token

/-- What is reported about a source. -/
def report (t : Tokenized) : List Text :=
  ("Tokenizing ".toList ++ t.source.label) :: debugLines (t.steps.flatMap Step.log)

/-- The label of a source and its tokens. -/
def toJson (t : Tokenized) : Json Text :=
  .record [("source", .string t.source.label), ("tokens", .array (t.tokens.map Token.toJson))]

/-- The line for a token: its place, its kind, and its text as a literal. -/
def tokenLine (t : Token) : Text :=
  Text.ofNat t.line ++ ':' :: Text.ofNat t.col ++ '\t' :: t.kind.name.toList ++
    '\t' :: Text.literal t.text

end Tokenized

/-- The line above what is written about one of several texts. -/
def heading (label : Text) : Text := "== ".toList ++ label ++ " ==".toList

/-- What is written about the tokens of several sources. -/
def showTokenized (json : Bool) (all : List Tokenized) : Text :=
  if json then unlines [Json.pretty (.array (all.map Tokenized.toJson))]
  else
    unlines (all.flatMap fun t =>
      (if 1 < all.length then [heading t.source.label] else []) ++
        t.tokens.map Tokenized.tokenLine)

/-- The record of one note of a source. -/
structure ParsedNote where
  source : Source
  line : Nat
  steps : List Step

namespace ParsedNote

/-- The tokens of a note. -/
def tokens (n : ParsedNote) : List Token := n.steps.map Step.token

/-- What the note says. -/
def record (n : ParsedNote) : Record := Record.assemble n.tokens

/-- The source of a note and the line at which it starts. -/
def position (n : ParsedNote) : Text := n.source.label ++ ':' :: Text.ofNat n.line

/-- What is reported about a note. -/
def report (n : ParsedNote) : List Text :=
  debugLines (n.steps.flatMap Step.log ++ assemblyLog n.tokens) ++
    if n.record.hasErrors then
      [n.position ++ " has ".toList ++ Text.ofNat n.record.error.length ++ " error(s)".toList]
    else []

/-- Where a note stands and what it says. -/
def toJson (n : ParsedNote) : Json Text :=
  .record [("source", .string n.source.label), ("line", .nat n.line),
    ("record", n.record.toJson)]

end ParsedNote

/-- The notes of a source, read. -/
def parseSource (k : Keywords) (byLine : Bool) (s : Source) : List ParsedNote :=
  (Notes.split s.text byLine).map fun n => ⟨s, n.1, steps k n.2⟩

/-- What is reported about the notes of a source. -/
def parseReport (s : Source) (notes : List ParsedNote) : List Text :=
  ("Parsing ".toList ++ s.label) :: notes.flatMap ParsedNote.report

/-- What is written about several notes. -/
def showParsed (json : Bool) (all : List ParsedNote) : Text :=
  if json then unlines [Json.pretty (.array (all.map ParsedNote.toJson))]
  else
    unlines (all.flatMap fun n =>
      (if 1 < all.length then [heading n.position] else []) ++ [Json.pretty n.record.toJson])

-- ---------------------------------------------------------------------------
-- The whole command
-- ---------------------------------------------------------------------------

/-- The keywords that a command works with. -/
def loadKeywords (w : World) : Option Text → Progress Keywords
  | none => pure Keywords.standard
  | some path => do
    Progress.say ("Loading settings from ".toList ++ path.literal)
    let text ← Progress.attempt (w.read path) (.settingsFile path)
    Progress.attempt (Settings.read text) (.settingsText path)

/-- Does what an invocation asks for; the result is what is written. -/
def Invocation.perform (w : World) (i : Invocation) : Progress Text := do
  let k ← loadKeywords w i.config
  let sources ← readSources w i.inputs
  match i.job with
  | .tokenize json =>
    let all := sources.map fun s => Tokenized.mk s (steps k s.text)
    Progress.sayAll (all.flatMap Tokenized.report)
    return showTokenized json all
  | .parse json byLine =>
    let all := sources.map fun s => (s, parseSource k byLine s)
    Progress.sayAll (all.flatMap fun p => parseReport p.1 p.2)
    return showParsed json (all.flatMap Prod.snd)

/-- The output of an invocation. -/
def Invocation.output (w : World) (i : Invocation) : Output :=
  let p := i.perform w
  let said := if i.verbose then p.lines else []
  match p.result with
  | .ok out => ⟨0, out, unlines said⟩
  | .error f => ⟨1, [], unlines (said ++ f.render)⟩

/-- The name of the program and its version. -/
def versionLine : Text := "sowhat 0.1.0".toList

/-- How the program is used. -/
def usage : List Text :=
  ["Usage: sowhat [--verbose] [--config FILE] tokenize [--json] INPUT...".toList,
    "       sowhat [--verbose] [--config FILE] parse [--json] [--lines] INPUT...".toList]

/-- Runs a command. -/
def runCommand (w : World) (arguments : List Text) : Output :=
  match readArguments .none arguments with
  | .run i => i.output w
  | .version => ⟨0, unlines [versionLine], []⟩
  | .help => ⟨0, unlines usage, []⟩
  | .misuse => ⟨2, [], unlines usage⟩

end Jot
