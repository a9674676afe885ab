import MemberOrder.Files.System

/-!
Building a file system path by path, and listing the files in it.
-/

set_option autoImplicit false

namespace MemberOrder.FileSystem

/-- Nothing but a root, which is the working directory too. -/
def empty : FileSystem := ⟨[(0, .directory 0 [])], 0, 0⟩

/-- The names in a path that lead on. -/
def namesOf (path : List UInt8) : List FileName :=
  (Text.pieces slash path).filter fun name => name ≠ [] && name ≠ hereName

variable (fs : FileSystem)

/-- The node that a directory gives a name to. -/
def entry? (directory : Inode) (name : FileName) : Option Inode :=
  match fs.node? directory with
  | some (.directory _ entries) => entries.lookup name
  | _ => none

/-- Puts a file below a directory, or a directory where no bytes are given, and makes the
directories above it. -/
def install (content : Option (List UInt8)) (fs : FileSystem) (directory : Inode) :
    List FileName → FileSystem
  | [] => fs
  | name :: rest =>
    match rest, content, fs.entry? directory name with
    | [], some bytes, some i => fs.put i (.file bytes)
    | [], some bytes, none => fs.create directory name (.file bytes)
    | rest, _, some i => install content fs i rest
    | rest, _, none =>
      install content (fs.create directory name (.directory directory [])) fs.fresh rest

/-- The files in a directory and, so deep, below it, each with the names that lead to it. -/
def filesBelow : Nat → Inode → List (List FileName × List UInt8)
  | 0, _ => []
  | depth + 1, i =>
    match fs.node? i with
    | some (.directory _ entries) =>
      entries.flatMap fun (name, j) =>
        match fs.node? j with
        | some (.file bytes) => [([name], bytes)]
        | _ => (filesBelow depth j).map fun (names, bytes) => (name :: names, bytes)
    | _ => []

/-- The files below the working directory, each with its path. -/
def files : List (List UInt8 × List UInt8) :=
  (fs.filesBelow fs.nodes.length fs.working).map fun (names, bytes) =>
    (Text.joined [slash] names, bytes)

end MemberOrder.FileSystem
