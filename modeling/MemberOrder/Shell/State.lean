import MemberOrder.Shell.Host
import MemberOrder.Shell.Syntax

/-!
The state in which commands run: the files, the channels that descriptors lead to, and the shell
itself.
-/

set_option autoImplicit false

namespace MemberOrder.Shell

/-- What a descriptor leads to. -/
inductive Channel
  /-- A file, read and written from a position on, or written always at its end. -/
  | file (i : Inode) (position : Nat) (append reads writes : Bool)
  /-- What is written is kept, the last first. -/
  | kept (reversed : Text)
  /-- What is still to be read. -/
  | given (rest : Text)
  /-- Empty, and forgets what is written. -/
  | null
deriving DecidableEq

structure Variable where
  value : Option Text
  exported : Bool
  fixed : Bool
deriving DecidableEq

/-- A job that runs while the shell goes on; it has ended already, with a status. -/
structure Job where
  number : Nat
  status : Nat
deriving DecidableEq

/-- A shell. -/
structure Session where
  name : Text
  /-- What tells the shell from others. -/
  number : Nat
  arguments : List Text
  bindings : List (Text × Variable)
  functions : List (Text × Command)
  /-- Variables that a function hides, with what they were. -/
  hidden : List (List (Text × Option Variable))
  /-- Channels by descriptors. -/
  descriptors : List (Nat × Nat)
  directory : Inode
  status : Nat
  /-- The status of the last substitution in a command. -/
  substituted : Nat
  /-- The line of the script that complaints name. -/
  line : Nat
  /-- The builtin command that is running. -/
  builtin : Option Text
  flags : List Char
  /-- What is to be done on signals, by their numbers; on number zero, at the end. -/
  traps : List (Nat × Text)
  loops : Nat
  jobs : List Job
  /-- What the shell does on signals that this one is inside of, if it is. -/
  outerTraps : Option (List (Nat × Text))
  /-- The status with which the shell ends while it does what is to be done then. -/
  leaving : Option Nat
  documents : List (Nat × Word)
  nextDocument : Nat
  /-- The permissions that new files do not get. -/
  mask : Nat

structure State where
  files : FileSystem
  channels : Array Channel
  session : Session
  /-- The number of the next shell or job. -/
  nextNumber : Nat
  /-- Signals that have come for shells, by their numbers, and are still to be seen to. -/
  pending : List (Nat × Nat)

/-- Why commands do not go on one after the other. -/
inductive Stop
  | exit
  /-- A complaint that ends the shell, where a builtin command does not catch it. -/
  | error
  | leaveLoops (count : Nat)
  | nextRound (count : Nat)
  | leaveFunction
  /-- The process ends by a signal. -/
  | died (signal : Nat)
  /-- The shell of that number ends by a signal. -/
  | killed (shell signal : Nat)
deriving DecidableEq

abbrev Action := ExceptT Stop (StateM State)

def getSession : Action Session := return (← get).session

def modifySession (f : Session → Session) : Action Unit :=
  modify fun state => { state with session := f state.session }

/-- How often a loop may be run. -/
def roundLimit : Nat := 1000000

namespace Channel

/-- Puts a text into another from a position on; what is missing before is filled with zeros. -/
def spliced (old : Text) (position : Nat) (new : Text) : Text :=
  let before := old.take position
  before ++ List.replicate (position - before.length) '\x00' ++ new
    ++ old.drop (position + new.length)

end Channel

/-- The contents of a file as octets. -/
def contents? (files : FileSystem) (i : Inode) : Option Text :=
  match files.node? i with
  | some (.file bytes) => some (Octets.ofBytes bytes)
  | some (.guarded readable _) => readable.map Octets.ofBytes
  | _ => none

/-- Adds a channel, and gives its number. -/
def addChannel (channel : Channel) : Action Nat := do
  let state ← get
  set { state with channels := state.channels.push channel }
  return state.channels.size

def channel? (descriptor : Nat) : Action (Option (Nat × Channel)) := do
  let state ← get
  return do
    let number ← state.session.descriptors.lookup descriptor
    return (number, ← state.channels[number]?)

def setChannel (number : Nat) (channel : Channel) : Action Unit :=
  modify fun state => { state with channels := state.channels.setIfInBounds number channel }

/-- Leads a descriptor to a channel, or closes it. -/
def Session.lead (session : Session) (descriptor : Nat) (channel : Option Nat) : Session :=
  let others := session.descriptors.filter (·.1 != descriptor)
  { session with
    descriptors := match channel with
      | some number => (descriptor, number) :: others
      | none => others }

/-- Writes to a descriptor, and tells whether that could be done. -/
def write (descriptor : Nat) (t : Text) : Action Bool := do
  match ← channel? descriptor with
  | some (number, .kept reversed) =>
    setChannel number (.kept (t.reverse ++ reversed))
    return true
  | some (_, .null) => return true
  | some (number, .file i position append reads true) =>
    let files := (← get).files
    match contents? files i with
    | some old =>
      let position := if append then old.length else position
      let new := if t.isEmpty then old else Channel.spliced old position t
      modify fun state =>
        { state with files := files.put i (.file (Octets.toBytes new)) }
      setChannel number (.file i (position + t.length) append reads true)
    | none => pure ()
    return true
  | _ => return t.isEmpty

/-- Reads all that a descriptor still gives; nothing if it cannot be read. -/
def readAll (descriptor : Nat) : Action (Option Text) := do
  match ← channel? descriptor with
  | some (number, .given rest) =>
    setChannel number (.given [])
    return some rest
  | some (_, .null) => return some []
  | some (number, .file i position append true writes) =>
    let rest := ((contents? (← get).files i).getD []).drop position
    setChannel number (.file i (position + rest.length) append true writes)
    return some rest
  | _ => return none

/-- Gives back the end of what was read from a descriptor. -/
def unread (descriptor : Nat) (t : Text) : Action Unit := do
  match ← channel? descriptor with
  | some (number, .given rest) => setChannel number (.given (t ++ rest))
  | some (number, .file i position append true writes) =>
    setChannel number (.file i (position - t.length) append true writes)
  | _ => pure ()

def outputDescriptor : Nat := 1

def errorDescriptor : Nat := 2

/-- Writes a complaint of the shell. -/
def warn (message : Text) : Action Unit := do
  let session ← getSession
  let place := session.name ++ ": ".toList ++ Octets.ofNat session.line ++ ": ".toList
  let builtin := match session.builtin with
    | some name => name ++ ": ".toList
    | none => []
  let _ ← write errorDescriptor (place ++ builtin ++ message ++ ['\n'])

def setStatus (status : Nat) : Action Unit := modifySession fun session => { session with status }

/-- The status of a shell that ends by a complaint. -/
def errorStatus : Nat := 2

/-- Complains, and stops. -/
def fail {α : Type} (message : Text) : Action α := do
  warn message
  setStatus errorStatus
  throw .error

def hasFlag (flag : Char) : Action Bool := return (← getSession).flags.contains flag

def binding? (name : Text) : Action (Option Variable) := return (← getSession).bindings.lookup name

/-- The value of a variable that is set. -/
def value? (name : Text) : Action (Option Text) := return (← binding? name).bind (·.value)

/-- Puts a variable, or takes it away. -/
def Session.putVariable (session : Session) (name : Text) (binding : Option Variable) : Session :=
  let others := session.bindings.filter (·.1 != name)
  { session with
    bindings := match binding with
      | some v => (name, v) :: others
      | none => others }

/-- Gives a variable a value. -/
def assign (name value : Text) : Action Unit := do
  let old := (← binding? name).getD ⟨none, false, false⟩
  if old.fixed then fail (name ++ ": is read only".toList)
  let exported := old.exported || (← hasFlag 'a')
  modifySession fun session => session.putVariable name (some ⟨some value, exported, false⟩)

/-- The characters that divide words, where they are not set otherwise. -/
def defaultSeparators : Text := [' ', '\t', '\n']

def separators : Action Text := return (← value? "IFS".toList).getD defaultSeparators

/-- The names that lead from the root to a directory at most so deep, the last first. -/
def namesAbove (files : FileSystem) : Nat → Inode → List FileName
  | 0, _ => []
  | depth + 1, i =>
    match files.node? i with
    | some (.directory parent _) =>
      if i = files.root then []
      else
        match files.node? parent with
        | some (.directory _ entries) =>
          match entries.find? (·.2 == i) with
          | some (name, _) => name :: namesAbove files depth parent
          | none => []
        | _ => []
    | _ => []

/-- The path of a directory from the root. -/
def pathOf (files : FileSystem) (i : Inode) : Text :=
  let names := (namesAbove files files.nodes.length i).reverse
  '/' :: Text.joined ['/'] (names.map Octets.ofBytes)

/-- The path of the directory in which commands run. -/
def here : Action Text := do
  let state ← get
  return pathOf state.files state.session.directory

def modifyFiles (f : FileSystem → FileSystem) : Action Unit :=
  modify fun state => { state with files := f state.files }

/-- Where octets lead. -/
def resolve (path : Text) : Action (Except FileError Spot) := do
  let state ← get
  return state.files.resolveFrom state.session.directory (Octets.toBytes path)

/-- The node that octets lead to, with its number. -/
def find (path : Text) : Action (Except FileError (Inode × Node)) := do
  match ← resolve path with
  | .error e => return .error e
  | .ok (.vacant _ _) => return .error .missing
  | .ok (.found i) =>
    match (← get).files.node? i with
    | some node => return .ok (i, node)
    | none => return .error .missing

/-- An entry of a directory, with the node that it leads to if it is there. -/
structure Entry where
  directory : Inode
  name : FileName
  i : Option Inode

/-- The entry that the last component of a path is, be it a link or not. -/
def locate (path : Text) : Action (Except FileError Entry) := do
  let stripped := (path.reverse.dropWhile (· = '/')).reverse
  let name := Text.lastPiece '/' stripped
  let above := stripped.take (stripped.length - name.length)
  if path.isEmpty then return .error .missing
  if [[], ['.'], ['.', '.']].contains name then return .error .isDirectory
  match ← find (if above.isEmpty then ['.'] else above) with
  | .error e => return .error e
  | .ok (directory, .directory _ entries) =>
    let name := Octets.toBytes name
    if FileSystem.nameLimit < name.length then return .error .nameTooLong
    return .ok ⟨directory, name, entries.lookup name⟩
  | .ok _ => return .error .notDirectory

/-- Takes a name out of a directory. -/
def unlink (directory : Inode) (name : FileName) : Action Unit :=
  modifyFiles fun files =>
    match files.node? directory with
    | some (.directory parent entries) =>
      files.put directory (.directory parent (entries.filter (·.1 != name)))
    | _ => files

/-- The names in a directory, in order. -/
def namesOf (entries : List (FileName × Inode)) : List Text :=
  (entries.map fun (name, _) => Octets.ofBytes name).mergeSort fun a b =>
    Text.compareCodePoints a b != .gt

/-- Opens a file. -/
def openFile (opening : Opening) (path : Text) : Action (Except FileError Channel) := do
  let creates := opening != .input
  if creates && path.getLast? = some '/' then
    match ← resolve path with
    | .error .missing => return .error .isDirectory
    | .error e => return .error e
    | .ok _ => return .error .isDirectory
  let files := (← get).files
  let channel (i : Inode) : Channel :=
    .file i 0 (opening == .append) (!creates || opening == .both) creates
  match ← resolve path with
  | .error e => return .error e
  | .ok (.vacant directory name) =>
    if creates then
      modifyFiles (·.create directory name (.file []))
      return .ok (channel files.fresh)
    else return .error .missing
  | .ok (.found i) =>
    match files.node? i with
    | some (.directory _ _) =>
      if creates then return .error .isDirectory else return .ok (channel i)
    | some .sink => return .ok .null
    | some (.file _) =>
      if opening == .output && (← hasFlag 'C') then return .error .present
      if opening == .output || opening == .clobber then modifyFiles (·.put i (.file []))
      return .ok (channel i)
    | some (.guarded readable e) =>
      if opening == .output && (← hasFlag 'C') then return .error .present
      if creates || readable.isNone then return .error e
      return .ok (channel i)
    | some (.barred e) => return .error e
    | some (.link _) => return .error .tooManyLinks
    | none => return .error .missing

/-- Runs an action, and gives what stopped it, if anything has. -/
def attempt {α : Type} (action : Action α) : Action (Except Stop α) :=
  tryCatch (Except.ok <$> action) fun stop => return .error stop

/-- Runs an action in a changed copy of the session; only the files and channels stay as it leaves
them. -/
def isolated {α : Type} (change : Session → Session) (action : Action α) : Action α := do
  let outer ← getSession
  modifySession change
  let result ← attempt action
  modifySession fun _ => outer
  match result with
  | .ok a => return a
  | .error stop => throw stop

end MemberOrder.Shell
