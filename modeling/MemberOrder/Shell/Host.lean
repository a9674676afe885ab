import MemberOrder.Files.Building
import MemberOrder.Shell.Octets

/-!
The host on which commands are run: where its programs are, and the directories that are there
before anything else is. Nothing in this library rests on it but the commands themselves.
-/

set_option autoImplicit false

namespace MemberOrder.Shell.Host

/-- The names of the programs of the system. -/
def programNames : List String :=
  ["[", "basename", "cat", "chmod", "cp", "dirname", "echo", "env", "expr", "false", "head", "ln",
    "ls", "mkdir", "mv", "printf", "pwd", "rm", "rmdir", "seq", "sh", "sleep", "sort", "tail",
    "tee", "test", "touch", "tr", "true", "wc"]

def namesIn (path : String) : List FileName := FileSystem.namesOf (Utf8.encode path.toList)

/-- The directories that are always there, the working directory first. -/
def directories : List String := ["/tmp/work", "/usr/bin", "/bin", "/dev", "/etc", "/root"]

/-- Where the programs of the system are. -/
def programDirectories : List String := ["/usr/bin", "/bin"]

/-- The node that a path from the root leads to. -/
def nodeAt (files : FileSystem) (path : String) : Inode :=
  match files.resolve (Utf8.encode path.toList) with
  | .ok (.found i) => i
  | _ => files.root

/-- A program can be read as if it were empty, and cannot be written while it is in use. -/
def program : Node := .guarded (some []) (.other 26 "Text file busy")

/-- Gives a program its names in the directories of programs. -/
def withProgram (files : FileSystem) (name : String) : FileSystem :=
  let i := files.fresh
  let files := { files with nodes := files.nodes ++ [(i, program)] }
  programDirectories.foldl
    (fun files path => files.enter (nodeAt files path) (Utf8.encode name.toList) i) files

/-- The files of the host while its working directory is empty. -/
def files : FileSystem :=
  let files := directories.foldl
    (fun files path => files.install none files.root (namesIn path)) FileSystem.empty
  let files := files.create (nodeAt files "/dev") (Utf8.encode "null".toList) .sink
  let files := programNames.foldl withProgram files
  { files with working := nodeAt files "/tmp/work" }

/-- The programs by their nodes. -/
def programs : List (Inode × String) :=
  programNames.map fun name => (nodeAt files ("/usr/bin/" ++ name), name)

/-- The program that a node holds. -/
def program? (i : Inode) : Option String := programs.lookup i

end MemberOrder.Shell.Host
