import MemberOrder.Document.Basic
import MemberOrder.Shell.Evaluation

/-!
Launching a command line on the host: a name with a slash is a path, and other names are looked up
among the programs of the system. No other file has the permission to be run.
-/

set_option autoImplicit false

namespace MemberOrder.Shell

/-- The program that a name stands for. -/
def programOf (files : FileSystem) (name : List UInt8) : Except FileError String :=
  if name.contains FileSystem.slash then do
    match ← files.resolve name with
    | .vacant _ _ => .error .missing
    | .found i => match Host.program? i with
      | some program => .ok program
      | none => .error .denied
  else if [[], FileSystem.hereName, FileSystem.parentName].contains name then .error .denied
  else if FileSystem.nameLimit < name.length then .error .nameTooLong
  else
    match Host.programNames.find? (Utf8.encode ·.toList == name) with
    | some program => .ok program
    | none => .error .missing

/-- Runs a command line, and gives what became of it with the files after it. -/
def launch (files : FileSystem) (words : List (List UInt8)) : Launch × FileSystem :=
  match programOf files (words.headD []) with
  | .error e => (.refused e, files)
  | .ok program =>
    let octets := words.map Octets.ofBytes
    let completion := complete files program (octets.headD []) (octets.drop 1)
    let status : Int := match completion.ending with
      | .status n => n
      | .signal n => -n
    (.ended status completion.output completion.errors, completion.files)

end MemberOrder.Shell
