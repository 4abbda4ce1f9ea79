import Jot.Text.Basic

/-!
# Jot — files

The files that a command can see, as a finite tree without symbolic links.  A path is followed
one component at a time, the way an operating system does it, so that the reason why a path
leads nowhere is always the first obstacle on it (`Entry.locate`).  Names and paths have a
greatest length.  They are texts: an operating system also allows names that are not UTF-8, and
these are outside the model.  A tree is all there is (`World.ofRoot`), or the part of it in which
a command runs, and then nothing outside can be seen (`World.ofTree`).
-/

namespace Jot

/-- Why a file cannot be used. -/
inductive FileError where
  | notFound
  | notDirectory
  | isDirectory
  | nameTooLong
  | invalidUtf8
deriving DecidableEq

/-- The reason in the words of the operating system. -/
def FileError.message : FileError → String
  | notFound => "No such file or directory (os error 2)"
  | notDirectory => "Not a directory (os error 20)"
  | isDirectory => "Is a directory (os error 21)"
  | nameTooLong => "File name too long (os error 36)"
  | invalidUtf8 => "stream did not contain valid UTF-8"

/-- A file with its content, or a directory with its named entries. -/
inductive Entry where
  | file (content : ByteArray)
  | directory (entries : List (Text × Entry))

/-- Where an entry is: the names on the way to it from the root of the tree. -/
abbrev Location := List Text

/-- The written form of a location; `base` is that of the root. -/
def Location.display (base : Text) (l : Location) : Text :=
  match base ++ l.flatMap ('/' :: ·) with
  | [] => ['/']
  | path => path

/-- The text that bytes encode. -/
def decodeUtf8 (bytes : ByteArray) : Except FileError Text :=
  match String.fromUTF8? bytes with
  | some s => .ok s.toList
  | none => .error .invalidUtf8

/-- The longest name of a file, in bytes. -/
def nameLimit : Nat := 255

/-- The longest path that the operating system takes, in bytes. -/
def pathLimit : Nat := 4095

namespace Entry

/-- What stands for everything outside a tree: a directory in which nothing can be seen. -/
def outside : Entry := directory []

/-- The entry of a name. -/
def child (name : Text) : Entry → Except FileError Entry
  | file _ => .error .notDirectory
  | directory entries =>
    if nameLimit < Text.byteSize name then .error .nameTooLong
    else
      match entries.find? fun e => e.1 == name with
      | some e => .ok e.2
      | none => .error .notFound

/-- Follows the components of a path from an entry.  `trail` holds the names that led there and
the directories they were found in, innermost first; beyond the last of them there is `top`.  A
location that does not satisfy `fits` cannot be asked about. -/
def follow (fits : Location → Bool) (top : Entry) (trail : List (Text × Entry)) (here : Entry) :
    List Text → Except FileError (Location × Entry)
  | [] => .ok ((trail.map Prod.fst).reverse, here)
  | name :: path =>
    if name = [] ∨ name = ['.'] then
      match here with
      | file _ => .error .notDirectory
      | directory _ => follow fits top trail here path
    else if name = ['.', '.'] then
      match here, trail with
      | file _, _ => .error .notDirectory
      | directory _, [] => follow fits top [] top path
      | directory _, (_, parent) :: trail => follow fits top trail parent path
    else if fits ((trail.map Prod.fst).reverse ++ [name]) then
      match here.child name with
      | .ok next => follow fits top ((name, here) :: trail) next path
      | .error e => .error e
    else .error .nameTooLong

/-- The place that a path leads to, and what is there.  An absolute path starts at `top`; any
other starts at `place` below `root`. -/
def locate (fits : Location → Bool) (top root : Entry) (place : Location) (path : Text) :
    Except FileError (Location × Entry) :=
  if path = [] then .error .notFound
  else if path.head? = some '/' then follow fits top [] top (path.splitOn '/')
  else follow fits top [] root (place ++ path.splitOn '/')

/-- The text of a file. -/
def read : Entry → Except FileError Text
  | file content => decodeUtf8 content
  | directory _ => .error .isDirectory

end Entry

/-- What a command can see of the world: its standard input and its files.  A path is either
*resolved*, which is done name by name and tells where it leads, or *read*, for which the
operating system takes it as a whole.  `base` is the written form of the place where all
locations start. -/
structure World where
  stdin : ByteArray
  base : Text
  resolve : Text → Except FileError (Location × Entry)
  read : Text → Except FileError Text

namespace World

/-- The world of a command that runs at a place below the root of a tree.  While a path is
resolved, the location reached so far must stay within the limit; when it is read, the path itself
must. -/
def seen (stdin : ByteArray) (base : Text) (top root : Entry) (place : Location) : World :=
  { stdin
    base
    resolve := Entry.locate (fun l => decide (Text.byteSize (l.display base) ≤ pathLimit)) top root
      place
    read := fun path =>
      if pathLimit < Text.byteSize path then .error .nameTooLong
      else (Entry.locate (fun _ => true) top root place path).bind fun found => found.2.read }

/-- The world of a command that runs in the root of a tree and sees nothing else. -/
def ofTree (stdin : ByteArray) (base : Text) (root : Entry) : World :=
  seen stdin base Entry.outside root []

/-- The world of a command that runs at a place in a tree that has every file. -/
def ofRoot (stdin : ByteArray) (root : Entry) (place : Location) : World :=
  seen stdin [] root root place

/-- The written form of a location. -/
def display (w : World) (l : Location) : Text := l.display w.base

end World

end Jot
