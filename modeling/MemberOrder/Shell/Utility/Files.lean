import MemberOrder.Shell.Utility.Basic

/-!
Programs that make, move, copy and remove files.
-/

set_option autoImplicit false

namespace MemberOrder.Shell.Utility

/-- A message about a path that cannot be worked on. -/
def pathMessage (what : String) (name : Text) (e : FileError) : Text :=
  what.toList ++ ' ' :: name ++ ": ".toList ++ e.description.toList

/-- Makes files that are not there. -/
def touch (arguments : List Text) : Action Nat :=
  withArguments "touch" "acm" "drt" arguments fun arguments => do
    if arguments.operands.isEmpty then return ← misused "touch" "missing file operand".toList
    let statuses ← arguments.operands.mapM fun path => do
      let failed (e : FileError) : Action Nat :=
        complain "touch" (pathMessage "cannot touch" (quoted path) e)
      match ← resolve path with
      | .error e => failed e
      | .ok (.vacant directory name) =>
        if !arguments.has 'c' then modifyFiles (·.create directory name (.file []))
        return 0
      | .ok (.found _) => return 0
    return statuses.foldl max 0

/-- Makes directories. -/
def mkdir (arguments : List Text) : Action Nat :=
  withArguments "mkdir" "pv" "m" arguments fun arguments => do
    if arguments.operands.isEmpty then return ← misused "mkdir" "missing operand".toList
    let make (path : Text) : Action (Except FileError Unit) := do
      let stripped := (path.reverse.dropWhile (· = '/')).reverse
      match ← resolve (if stripped.isEmpty then path else stripped) with
      | .error e => return .error e
      | .ok (.found _) => return .error .present
      | .ok (.vacant directory name) =>
        modifyFiles (·.create directory name (.directory directory []))
        return .ok ()
    let statuses ← arguments.operands.mapM fun path => do
      let failed (path : Text) (e : FileError) : Action Nat :=
        complain "mkdir" (pathMessage "cannot create directory" (cited path) e)
      if arguments.has 'p' then
        let components := Text.pieces '/' path
        let above := (List.range components.length).map fun i =>
          Text.joined ['/'] (components.take (i + 1))
        let results ← (above.filter (!·.isEmpty)).mapM fun path => do
          match ← make path with
          | .ok () => return none
          | .error .present =>
            match ← find path with
            | .ok (_, .directory _ _) => return none
            | _ => return some (path, FileError.present)
          | .error e => return some (path, e)
        match results.filterMap id with
        | [] => return 0
        | (bad, .present) :: _ =>
          failed bad (if bad = path then .present else .notDirectory)
        | (bad, e) :: _ => failed bad e
      else
        match ← make path with
        | .ok () => return 0
        | .error e => failed path e
    return statuses.foldl max 0

/-- Removes empty directories. -/
def rmdir (arguments : List Text) : Action Nat :=
  withArguments "rmdir" "pv" "" arguments fun arguments => do
    if arguments.operands.isEmpty then return ← misused "rmdir" "missing operand".toList
    let statuses ← arguments.operands.mapM fun path => do
      let failed (e : FileError) : Action Nat :=
        complain "rmdir" (pathMessage "failed to remove" (quoted path) e)
      match ← locate path with
      | .error .isDirectory => failed (.other 22 "Invalid argument")
      | .error e => failed e
      | .ok ⟨_, _, none⟩ => failed .missing
      | .ok ⟨directory, name, some i⟩ =>
        match (← get).files.node? i with
        | some (.directory _ []) =>
          unlink directory name
          return 0
        | some (.directory _ _) => failed .notEmpty
        | _ => failed .notDirectory
    return statuses.foldl max 0

/-- Removes files, and directories with all that is in them. -/
def rm (arguments : List Text) : Action Nat :=
  withArguments "rm" "frRv" "" arguments fun arguments => do
    let quiet := arguments.has 'f'
    if arguments.operands.isEmpty then
      if quiet then return 0 else return ← misused "rm" "missing operand".toList
    let statuses ← arguments.operands.mapM fun path => do
      let failed (e : FileError) : Action Nat :=
        complain "rm" (pathMessage "cannot remove" (quoted path) e)
      let recursive := arguments.has 'r' || arguments.has 'R'
      match ← locate path with
      | .error .missing => if quiet then return 0 else failed .missing
      | .error .isDirectory =>
        if recursive then
          complain "rm"
            ("refusing to remove '.' or '..' directory: skipping ".toList ++ quoted path)
        else failed .isDirectory
      | .error e => failed e
      | .ok ⟨_, _, none⟩ => if quiet then return 0 else failed .missing
      | .ok ⟨directory, name, some i⟩ =>
        match (← get).files.node? i with
        | some (.directory _ _) =>
          if recursive then
            unlink directory name
            return 0
          else failed .isDirectory
        | _ =>
          unlink directory name
          return 0
    return statuses.foldl max 0

/-- Copies a node and, so deep, all that is below it to a name in a directory. -/
def copyTree : Nat → FileSystem → Inode → Inode → FileName → FileSystem
  | 0, files, _, _, _ => files
  | depth + 1, files, source, directory, name =>
    match files.node? source, files.entry? directory name with
    | some (.directory _ entries), existing =>
      let (files, copy) := match existing with
        | some i => (files, i)
        | none => (files.create directory name (.directory directory []), files.fresh)
      entries.foldl (fun files (name, i) => copyTree depth files i copy name) files
    | some node, some i => files.put i node
    | some node, none => files.create directory name node
    | none, _ => files

/-- Moves what one entry leads to under another name. -/
def rename (source target : Entry) (i : Inode) : Action Unit := do
  unlink source.directory source.name
  modifyFiles fun files =>
    let files := files.enter target.directory target.name i
    match files.node? i with
    | some (.directory _ entries) => files.put i (.directory target.directory entries)
    | _ => files

/-- Is a directory another one, or at most so deep below it? -/
def isWithin (files : FileSystem) (other : Inode) : Nat → Inode → Bool
  | 0, _ => false
  | depth + 1, i =>
    i == other || i != files.root && match files.node? i with
      | some (.directory parent _) => isWithin files other depth parent
      | _ => false

/-- Moves one thing to a path. -/
def move (source target : Text) : Action Nat := do
  let failed (e : FileError) : Action Nat :=
    complain "mv" (pathMessage "cannot move" (quoted source ++ " to ".toList ++ quoted target) e)
  let absent (e : FileError) : Action Nat :=
    complain "mv" (pathMessage "cannot stat" (quoted source) e)
  match ← locate source with
  | .error e => absent e
  | .ok ⟨_, _, none⟩ => absent .missing
  | .ok ⟨directory, name, some i⟩ =>
    match ← locate target with
    | .error e => failed e
    | .ok entry =>
      let files := (← get).files
      let isDirectory := match files.node? i with
        | some (.directory _ _) => true
        | _ => false
      match entry.i.bind files.node? with
      | some .sink => return 0
      | some (.file _) =>
        if entry.i = some i then
          complain "mv"
            (quoted source ++ " and ".toList ++ quoted target ++ " are the same file".toList)
        else if isDirectory then
          complain "mv"
            ("cannot overwrite non-directory ".toList ++ quoted target
              ++ " with directory ".toList ++ quoted source)
        else
          rename ⟨directory, name, some i⟩ entry i
          return 0
      | _ =>
        if isDirectory && isWithin files i files.nodes.length entry.directory then
          complain "mv"
            ("cannot move ".toList ++ quoted source ++ " to a subdirectory of itself, ".toList
              ++ quoted target)
        else
          rename ⟨directory, name, some i⟩ entry i
          return 0

/-- Copies one thing to a path. -/
def copy (recursive : Bool) (source target : Text) : Action Nat := do
  match ← find source with
  | .error e => complain "cp" (pathMessage "cannot stat" (quoted source) e)
  | .ok (i, .directory _ entries) =>
    let files := (← get).files
    let enters (directory : Inode) : Bool := isWithin files i files.nodes.length directory
    let intoItself :=
      complain "cp"
        ("cannot copy a directory, ".toList ++ quoted source ++ ", into itself, ".toList
          ++ quoted target)
    if !recursive then
      complain "cp" ("-r not specified; omitting directory ".toList ++ quoted source)
    else
      match ← find target, ← locate target with
      | .ok (j, .directory _ _), _ =>
        if enters j then intoItself
        else
          modifyFiles fun files => entries.foldl
            (fun files (name, i) => copyTree files.nodes.length files i j name) files
          return 0
      | .ok _, _ =>
        complain "cp"
          ("cannot overwrite non-directory ".toList ++ quoted target
            ++ " with directory ".toList ++ quoted source)
      | .error _, .ok entry =>
        if enters entry.directory then intoItself
        else
          modifyFiles fun files => copyTree files.nodes.length files i entry.directory entry.name
          return 0
      | .error _, .error e =>
        complain "cp" (pathMessage "cannot create directory" (quoted target) e)
  | .ok (i, node) =>
    let failed (e : FileError) : Action Nat :=
      complain "cp" (pathMessage "cannot create regular file" (quoted target) e)
    match node.contents, ← resolve target with
    | _, .error e => failed e
    | .error e, _ =>
      complain "cp" (pathMessage "cannot open" (quoted source ++ " for reading".toList) e)
    | .ok bytes, .ok (.vacant directory name) =>
      modifyFiles (·.create directory name (.file bytes))
      return 0
    | .ok bytes, .ok (.found j) =>
      if i = j then
        complain "cp"
          (quoted source ++ " and ".toList ++ quoted target ++ " are the same file".toList)
      else
        match (← get).files.node? j with
        | some .sink => return 0
        | some (.guarded _ e) => failed e
        | _ =>
          modifyFiles (·.put j (.file bytes))
          return 0

/-- A path with the last component of another one behind it. -/
def inside (target path : Text) : Text :=
  let name := Text.lastPiece '/' ((path.reverse.dropWhile (· = '/')).reverse)
  if target.getLast? = some '/' then target ++ name else target ++ '/' :: name

/-- Copies or moves files, to another name or into a directory. -/
def transferAll (program : String) (moves : Bool) (arguments : List Text) : Action Nat :=
  withArguments program "afinprRTuv" "" arguments fun arguments => do
    let recursive := ['a', 'r', 'R'].any arguments.has
    let transfer := if moves then move else copy recursive
    match arguments.operands.dropLast, arguments.operands.getLast? with
    | [], none => misused program "missing file operand".toList
    | [], some only =>
      misused program ("missing destination file operand after ".toList ++ quoted only)
    | paths, target =>
      let target := target.getD []
      match ← find target with
      | .ok (_, .directory _ _) =>
        let statuses ← paths.mapM fun path => transfer path (inside target path)
        return statuses.foldl max 0
      | result =>
        match paths with
        | [path] => transfer path target
        | _ =>
          let e := match result with
            | .error e => e
            | .ok _ => .notDirectory
          complain program (pathMessage "target" (quoted target) e)

/-- Makes one link at a path. -/
def makeLink (isSymbolic replaces : Bool) (target path : Text) : Action Nat := do
  let kind := if isSymbolic then "symbolic" else "hard"
  let failed (e : FileError) : Action Nat :=
    complain "ln" (pathMessage ("failed to create " ++ kind ++ " link") (quoted path) e)
  let make (node : Inode → FileName → FileSystem → FileSystem) : Action Nat := do
    match ← locate path, ← find target with
    | .error e, _ => failed e
    | .ok ⟨directory, name, some i⟩, found =>
      if !replaces then failed .present
      else if (found.toOption.map (·.1)) = some i then
        complain "ln"
          (quoted target ++ " and ".toList ++ quoted path ++ " are the same file".toList)
      else
        unlink directory name
        modifyFiles (node directory name)
        return 0
    | .ok ⟨directory, name, none⟩, _ =>
      modifyFiles (node directory name)
      return 0
  if isSymbolic then
    make fun directory name files => files.create directory name (.link (Octets.toBytes target))
  else
    match ← find target with
    | .error e => complain "ln" (pathMessage "failed to access" (quoted target) e)
    | .ok (_, .directory _ _) =>
      complain "ln" (shown target ++ ": hard link not allowed for directory".toList)
    | .ok (i, _) => make fun directory name files => files.enter directory name i

/-- Makes links, at another path or in a directory. -/
def ln (arguments : List Text) : Action Nat :=
  withArguments "ln" "fnsv" "" arguments fun arguments => do
    let link := makeLink (arguments.has 's') (arguments.has 'f')
    match arguments.operands.dropLast, arguments.operands.getLast? with
    | [], none => misused "ln" "missing file operand".toList
    | [], some only => link only (inside ['.'] only)
    | paths, target =>
      let target := target.getD []
      match ← find target, paths with
      | .ok (_, .directory _ _), paths =>
        let statuses ← paths.mapM fun path => link path (inside target path)
        return statuses.foldl max 0
      | _, [path] => link path target
      | .error e, _ => complain "ln" (pathMessage "target" (quoted target) e)
      | .ok _, _ => complain "ln" (pathMessage "target" (quoted target) .notDirectory)

/-- Lists what is in directories. -/
def ls (arguments : List Text) : Action Nat :=
  withArguments "ls" "1aAdF" "" arguments fun arguments => do
    let paths := if arguments.operands.isEmpty then [['.']] else arguments.operands
    let found ← paths.mapM fun path => do return (path, ← find path)
    let mut status := 0
    for (path, result) in found do
      if let .error e := result then
        let _ ← complain "ls" (pathMessage "cannot access" (quoted path) e)
        status := 2
    let entriesOf (node : Node) : Option (List (FileName × Inode)) := match node with
      | .directory _ entries => if arguments.has 'd' then none else some entries
      | _ => none
    let sorted := found.mergeSort fun a b => Text.compareCodePoints a.1 b.1 != .gt
    let single := sorted.filterMap fun (path, result) => match result with
      | .ok (_, node) => if (entriesOf node).isSome then none else some path
      | .error _ => none
    let directories := sorted.filterMap fun (path, result) => match result with
      | .ok (_, node) => (entriesOf node).map fun entries => (path, entries)
      | .error _ => none
    let listing (entries : List (FileName × Inode)) : Text :=
      let names := namesOf entries
      let names := if arguments.has 'a' then ['.'] :: ['.', '.'] :: names
        else if arguments.has 'A' then names
        else names.filter (·.head? != some '.')
      names.flatMap (· ++ ['\n'])
    let blocks := directories.map fun (path, entries) =>
      if paths.length > 1 then path ++ ":\n".toList ++ listing entries else listing entries
    let first := single.flatMap (· ++ ['\n'])
    print (Text.joined ['\n'] (if single.isEmpty then blocks else first :: blocks))
    return status

end MemberOrder.Shell.Utility
