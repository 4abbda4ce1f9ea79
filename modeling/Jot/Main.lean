import Jot.Command.Run

/-!
# Jot — the program

The only module that touches the world.  It takes a snapshot of what the arguments name, asks
`runCommand` what to write, and writes it.
-/

namespace Jot

/-- The deepest directory that a snapshot reaches. -/
def snapshotDepth : Nat := 4096

/-- A file or directory as it is now.  Symbolic links inside directories are left out. -/
def snapshot (depth : Nat) (path : String) : IO Entry := do
  let real ← IO.FS.realPath path
  if ← real.isDir then
    match depth with
    | 0 => return .directory []
    | depth + 1 =>
      let found ← real.readDir
      let names := (found.map fun e => e.fileName).qsort (· < ·)
      let mut entries := #[]
      for name in names do
        let inner := real / name
        unless (← inner.symlinkMetadata).type matches .symlink do
          entries := entries.push (name.toList, ← snapshot depth inner.toString)
      return .directory entries.toList
  else
    return .file (← IO.FS.readBinFile real)

/-- The obstacle that an error of the operating system stands for; directories and things that
are none share a constructor and differ in their code. -/
def FileError.ofIO : IO.Error → FileError
  | .inappropriateType _ 21 _ => .isDirectory
  | .inappropriateType .. => .notDirectory
  | .invalidArgument .. => .nameTooLong
  | _ => .notFound

/-- The bytes of a file, or the obstacle to opening it. -/
def openFile (path : String) : IO (Except FileError ByteArray) := do
  try
    return .ok (← IO.FS.readBinFile path)
  catch e => return .error (FileError.ofIO e)

/-- Follows the names of a path from the resolved place `here`. -/
def resolveFrom (here : String) : List Text → IO (Except FileError String)
  | [] => return .ok here
  | name :: path => do
    let next := here ++ "/" ++ String.ofList name
    let real ← try
        let real ← IO.FS.realPath next
        pure (some real.toString)
      catch _ => pure none
    match real with
    | some real => resolveFrom real path
    | none =>
      match ← openFile next with
      | .error e => return .error e
      | .ok _ => return .error .notFound

/-- What a path leads to, as it is now. -/
def look (path : Text) : IO (Except FileError (Location × Entry)) := do
  if path = [] then return .error .notFound
  let start ← IO.FS.realPath (if path.head? = some '/' then "/" else ".")
  match ← resolveFrom start.toString (path.splitOn '/') with
  | .error e => return .error e
  | .ok real =>
    let location := (real.toList.splitOn '/').filter (· != [])
    return .ok (location, ← snapshot snapshotDepth real)

/-- The text of a file, as it is now. -/
def load (path : Text) : IO (Except FileError Text) := do
  return (← openFile (String.ofList path)).bind decodeUtf8

/-- The inputs of a request that are paths. -/
def Request.paths : Request → List Text
  | .run i => i.inputs.filter (· != stdinName)
  | _ => []

/-- The settings file of a request. -/
def Request.config : Request → Option Text
  | .run i => i.config
  | _ => none

/-- Whether a request reads standard input. -/
def Request.readsStdin : Request → Bool
  | .run i => i.inputs.contains stdinName
  | _ => false

/-- The part of the world that a request can see. -/
def observe (r : Request) : IO World := do
  let found ← r.paths.mapM fun path => do return (path, ← look path)
  let loaded ← r.config.toList.mapM fun path => do return (path, ← load path)
  let stdin ← if r.readsStdin then (← IO.getStdin).readBinToEnd else pure ByteArray.empty
  return {
    stdin
    base := []
    resolve := fun path => (found.lookup path).getD (.error .notFound)
    read := fun path => (loaded.lookup path).getD (.error .notFound) }

end Jot

open Jot in
/-- Runs the command of the arguments and ends with its exit code. -/
def main (args : List String) : IO UInt32 := do
  let arguments := args.map String.toList
  let world ← observe (readArguments .none arguments)
  let out := runCommand world arguments
  (← IO.getStdout).putStr (String.ofList out.stdout)
  (← IO.getStderr).putStr (String.ofList out.stderr)
  return out.exit.toUInt32
