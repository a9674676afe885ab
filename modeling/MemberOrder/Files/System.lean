import MemberOrder.Files.Path

/-!
File systems: numbered nodes, of which directories give names to others. One node may have several
names, and a link stands for the path that it holds. A path is walked component by component from
the root or from the working directory, so that all spellings of a file lead to one node.
-/

set_option autoImplicit false

namespace MemberOrder

/-- Why a path could not be opened or run. -/
inductive FileError
  | missing
  /-- What was opened is closed, or not open for this. -/
  | notOpen
  | denied
  | present
  | notDirectory
  | isDirectory
  | nameTooLong
  | notEmpty
  | tooManyLinks
  /-- Any other refusal of the system. -/
  | other (number : Nat) (description : String)
deriving DecidableEq

namespace FileError

def number : FileError → Nat
  | .missing => 2
  | .notOpen => 9
  | .denied => 13
  | .present => 17
  | .notDirectory => 20
  | .isDirectory => 21
  | .nameTooLong => 36
  | .notEmpty => 39
  | .tooManyLinks => 40
  | .other number _ => number

def description : FileError → String
  | .missing => "No such file or directory"
  | .notOpen => "Bad file descriptor"
  | .denied => "Permission denied"
  | .present => "File exists"
  | .notDirectory => "Not a directory"
  | .isDirectory => "Is a directory"
  | .nameTooLong => "File name too long"
  | .notEmpty => "Directory not empty"
  | .tooManyLinks => "Too many levels of symbolic links"
  | .other _ description => description

/-- The error as it is shown for a path. -/
def message (e : FileError) (path : RawText) : String :=
  "[Errno " ++ toString e.number ++ "] " ++ e.description ++ ": " ++ String.ofList path.quoted

end FileError

/-- The number of a node. -/
abbrev Inode := Nat

/-- A component of a path, as bytes. -/
abbrev FileName := List UInt8

inductive Node
  | file (bytes : List UInt8)
  /-- A directory, with the one above it and with the nodes that it gives names to. -/
  | directory (parent : Inode) (entries : List (FileName × Inode))
  /-- A symbolic link. -/
  | link (target : List UInt8)
  /-- A device that is always empty and forgets what is written to it. -/
  | sink
  /-- A file that the system refuses to open for writing, and for reading where its bytes are not
  given. -/
  | guarded (readable : Option (List UInt8)) (refusal : FileError)
  /-- A directory that the system refuses to search. -/
  | barred (refusal : FileError)
deriving DecidableEq

/-- What reading a node gives. -/
def Node.contents : Node → Except FileError (List UInt8)
  | .file bytes => .ok bytes
  | .directory _ _ => .error .isDirectory
  | .link _ => .error .tooManyLinks
  | .sink => .ok []
  | .guarded (some bytes) _ => .ok bytes
  | .guarded none refusal => .error refusal
  | .barred refusal => .error refusal

structure FileSystem where
  nodes : List (Inode × Node)
  root : Inode
  working : Inode
deriving DecidableEq

/-- Where a path leads: to a node, or to a name that a directory does not have. -/
inductive Spot
  | found (i : Inode)
  | vacant (directory : Inode) (name : FileName)
deriving DecidableEq

namespace FileSystem

variable (fs : FileSystem)

def node? (i : Inode) : Option Node := fs.nodes.lookup i

/-- Changes the node of a number. -/
def put (i : Inode) (node : Node) : FileSystem :=
  { fs with
    nodes := fs.nodes.map fun (other, old) => if other = i then (other, node) else (other, old) }

/-- A number that no node has. -/
def fresh : Inode := fs.nodes.foldl (fun least (i, _) => max least (i + 1)) 0

/-- Gives a node a name in a directory. -/
def enter (directory : Inode) (name : FileName) (i : Inode) : FileSystem :=
  match fs.node? directory with
  | some (.directory parent entries) =>
    fs.put directory (.directory parent (entries.filter (·.1 != name) ++ [(name, i)]))
  | _ => fs

/-- Adds a node under a name that the directory does not have. -/
def create (directory : Inode) (name : FileName) (node : Node) : FileSystem :=
  let fs' := fs.enter directory name fs.fresh
  { fs' with nodes := fs'.nodes ++ [(fs.fresh, node)] }

def slash : UInt8 := 0x2f

def hereName : FileName := [0x2e]

def parentName : FileName := [0x2e, 0x2e]

/-- How many bytes a path and a component may have, and how many links a walk may follow. -/
def pathLimit : Nat := 4095

def nameLimit : Nat := 255

def linkLimit : Nat := 40

/-- Where the walk along a path starts that is met in a directory. -/
def startOf (directory : Inode) (path : List UInt8) : Inode :=
  if path.head? = some slash then fs.root else directory

/-- Walks along components from a node on. A link is left to `jump`, with the directory where its
path is walked from and all the components that are then to come. -/
def walkWith (jump : Inode → List FileName → Except FileError Spot) (i : Inode) :
    List FileName → Except FileError Spot
  | [] => .ok (.found i)
  | name :: rest =>
    match fs.node? i with
    | some (.directory parent entries) =>
      if name = [] || name = hereName then walkWith jump i rest
      else if name = parentName then walkWith jump parent rest
      else if nameLimit < name.length then .error .nameTooLong
      else
        match entries.lookup name with
        | none => if rest = [] then .ok (.vacant i name) else .error .missing
        | some j =>
          match fs.node? j with
          | some (.link target) =>
            jump (fs.startOf i target) (Text.pieces slash target ++ rest)
          | _ => walkWith jump j rest
    | some (.barred refusal) => .error refusal
    | some _ => .error .notDirectory
    | none => .error .missing

/-- Walks along components and so many links. -/
def walk : Nat → Inode → List FileName → Except FileError Spot
  | 0 => fs.walkWith fun _ _ => .error .tooManyLinks
  | links + 1 => fs.walkWith (walk links)

/-- Where a path leads that is met in a directory. -/
def resolveFrom (directory : Inode) (path : List UInt8) : Except FileError Spot :=
  if path = [] then .error .missing
  else if pathLimit < path.length then .error .nameTooLong
  else fs.walk linkLimit (fs.startOf directory path) (Text.pieces slash path)

def resolve (path : List UInt8) : Except FileError Spot := fs.resolveFrom fs.working path

def read (path : List UInt8) : Except FileError (List UInt8) := do
  match ← fs.resolve path with
  | .vacant _ _ => .error .missing
  | .found i =>
    match fs.node? i with
    | some node => node.contents
    | none => .error .missing

/-- Writes a file, which need not be there before. -/
def write (path bytes : List UInt8) : Except FileError FileSystem := do
  match ← fs.resolve path with
  | .vacant directory name => .ok (fs.create directory name (.file bytes))
  | .found i =>
    match fs.node? i with
    | some (.file _) => .ok (fs.put i (.file bytes))
    | some (.directory _ _) => .error .isDirectory
    | some (.link _) => .error .tooManyLinks
    | some .sink => .ok fs
    | some (.guarded _ refusal) => .error refusal
    | some (.barred _) => .error .isDirectory
    | none => .error .missing

end FileSystem

end MemberOrder
