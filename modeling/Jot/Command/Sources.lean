import Jot.Command.Progress

/-!
# Jot — sources

The inputs of a command name files, directories, or standard input.  A file is taken as it is; a
directory stands for the note files below it, in the order of their locations; what is named
twice is read once.

A tree has no symbolic links, so a walk through it comes to no place twice.  A set of the
directories that have been visited would never turn one away, and no note of a walk would be left
out for having been met before; both are left out here (`Entry.nodup_visit`).  What several paths
select can overlap, and that is `distinct`.
-/

namespace Jot

/-- A text with the label under which it is shown. -/
structure Source where
  label : Text
  text : Text

/-- What follows the last full stop of a name, unless that is the first character. -/
def extension? (name : Text) : Option Text :=
  let tail := (name.reverse.takeWhile (· != '.')).reverse
  if tail.length + 1 < name.length then some tail else none

/-- The extensions of note files. -/
def noteExtensions : List Text := ["sw".toList, "sowhat".toList]

/-- Whether a file in a directory is a note. -/
def isNoteName (name : Text) : Bool :=
  match extension? name with
  | some e => noteExtensions.contains e
  | none => false

/-- A file that was selected. -/
structure NoteFile where
  location : Location
  content : ByteArray

/-- What is met on a walk through a directory. -/
inductive Visit where
  | directory (l : Location)
  | note (f : NoteFile)

namespace Visit

/-- The note file that was met, if it was one. -/
def note? : Visit → Option NoteFile
  | directory _ => none
  | note f => some f

/-- The report on a visit. -/
def report (w : World) : Visit → Text
  | directory l => "Visiting directory ".toList ++ (w.display l).literal
  | note f => "Found note file ".toList ++ (w.display f.location).literal

end Visit

mutual

/-- Walks through an entry; files that are no notes are passed over.  Without symbolic links no
directory is met twice, so none has to be remembered. -/
def Entry.visit (l : Location) : Entry → List Visit
  | .file content => if isNoteName (l.getLast?.getD []) then [.note ⟨l, content⟩] else []
  | .directory entries => .directory l :: Entry.visitAll l entries

/-- Walks through the entries of a directory. -/
def Entry.visitAll (l : Location) : List (Text × Entry) → List Visit
  | [] => []
  | (name, e) :: rest => e.visit (l ++ [name]) ++ Entry.visitAll l rest

end

/-- The order of locations: component by component, each by code point. -/
def Location.le (l m : Location) : Bool := (compare l m).isLE

/-- The notes that were met, in the order of their locations.  A walk meets each of them once, so
there is nothing to be dropped after sorting. -/
def sortedNotes (visits : List Visit) : List NoteFile :=
  (visits.filterMap Visit.note?).mergeSort fun f g => f.location.le g.location

/-- The files that a path selects. -/
def selectPath (w : World) (path : Text) : Progress (List NoteFile) := do
  let (l, entry) ← Progress.attempt (w.resolve path) (.resolving path)
  match entry with
  | .file content =>
    Progress.say ("Adding file ".toList ++ (w.display l).literal)
    return [⟨l, content⟩]
  | .directory entries =>
    let visits := (Entry.directory entries).visit l
    Progress.say ("Scanning directory ".toList ++ (w.display l).literal)
    Progress.sayAll (visits.map (Visit.report w))
    return sortedNotes visits

/-- Files at different locations, each where it was first selected. -/
def distinct (files : List NoteFile) : List NoteFile :=
  files.eraseDupsBy fun f g => f.location == g.location

/-- The files that several paths select. -/
def selectAll (w : World) : List Text → Progress (List NoteFile)
  | [] => pure []
  | path :: rest => do
    let files ← selectPath w path
    return files ++ (← selectAll w rest)

/-- Reads a file. -/
def NoteFile.source (w : World) (f : NoteFile) : Progress Source := do
  let label := w.display f.location
  return ⟨label, ← Progress.attempt (decodeUtf8 f.content) (.reading label)⟩

/-- Reads several files. -/
def fileSources (w : World) : List NoteFile → Progress (List Source)
  | [] => pure []
  | f :: rest => do
    let s ← f.source w
    return s :: (← fileSources w rest)

/-- The name of standard input among the inputs. -/
def stdinName : Text := ['-']

/-- One source for each time standard input is named; the first one exhausts it. -/
def stdinSources (w : World) (times : Nat) : Progress (List Source) :=
  match times with
  | 0 => pure []
  | n + 1 => do
    let text ← Progress.attempt (decodeUtf8 w.stdin) .standardInput
    let label := "<stdin>".toList
    return ⟨label, text⟩ :: List.replicate n ⟨label, []⟩

/-- The sources that the inputs of a command name, standard input first. -/
def readSources (w : World) (inputs : List Text) : Progress (List Source) := do
  let fromStdin ← stdinSources w (inputs.count stdinName)
  let paths := inputs.filter (· != stdinName)
  let files := distinct (← selectAll w paths)
  if !paths.isEmpty && files.isEmpty && fromStdin.isEmpty then Progress.fail .noNotes
  else return fromStdin ++ (← fileSources w files)

end Jot
