import MemberOrder.CommandLine.Run
import MemberOrder.Files.Building
import MemberOrder.Shell.Launch

/-!
The command line program: loads the files that the arguments name, runs the request on them, writes
back those that changed, and prints what there is to print. It takes for granted that the streams it
prints to can take every text.
-/

set_option autoImplicit false

namespace MemberOrder.CommandLine

/-- The bytes of a path of the system. -/
def bytesOf (path : String) : List UInt8 := Utf8.encode path.toList

/-- Adds the file that a path leads to. What cannot be read is not there. A path that goes through a
link has the file under its own spelling too. -/
def load (files : FileSystem) (path : Text) : IO FileSystem := do
  try
    let contents ← IO.FS.readBinFile (String.ofList path)
    let real := bytesOf (← IO.FS.realPath (String.ofList path)).toString
    let files := files.install (some contents.toList) files.root (FileSystem.namesOf real)
    match files.resolve real, files.resolve (Utf8.encode path) with
    | .ok (.found i), .ok (.vacant directory name) => return files.enter directory name i
    | _, _ => return files
  catch
    | .inappropriateType _ 21 _ =>
      let real := bytesOf (← IO.FS.realPath (String.ofList path)).toString
      return files.install none files.root (FileSystem.namesOf real)
    | _ => return files

/-- The root and the working directory. -/
def surroundings : IO FileSystem := do
  let working := bytesOf (← IO.currentDir).toString
  let files := FileSystem.empty.install none FileSystem.empty.root (FileSystem.namesOf working)
  match files.resolve working with
  | .ok (.found i) => return { files with working := i }
  | _ => return files

/-- The environment variables that set options. -/
def environment : IO (List (RawText × Value)) :=
  Field.all.filterMapM fun field => do
    let name := Environment.variableName field.name.toList
    return (← IO.getEnv (String.ofList name)).map fun value => (.ofText name, .ofString value)

/-- Writes the files at the paths that differ from what they were. -/
def store (before after : FileSystem) (paths : List Text) : IO Unit := do
  for path in paths do
    match before.read (Utf8.encode path), after.read (Utf8.encode path) with
    | .ok old, .ok new =>
      if old ≠ new then IO.FS.writeBinFile (String.ofList path) ⟨new.toArray⟩
    | _, _ => pure ()

end MemberOrder.CommandLine

open MemberOrder CommandLine in
def main (arguments : List String) : IO UInt32 := do
  let arguments := arguments.map String.toList
  let limit := DigitLimit.standard
  let paths := match Request.ofArguments limit arguments with
    | .ok request => request.command.paths
    | .error _ => []
  let files ← paths.foldlM load (← surroundings)
  let seed ← IO.rand 0 (Nat.pow 2 62)
  let transcript := run ⟨← environment, .ofSeed seed, limit, Shell.launch⟩ files arguments
  store files transcript.files paths
  IO.print (String.ofList transcript.printed)
  IO.eprint (String.ofList transcript.errors)
  if let .failed e := transcript.ending then
    IO.eprintln (String.ofList (e.message limit).escaped)
  for service in transcript.served do
    IO.eprintln ("no client is attached to " ++ String.ofList (service.transport.getD []))
  return transcript.ending.status.toUInt32
