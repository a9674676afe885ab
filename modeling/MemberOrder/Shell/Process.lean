import MemberOrder.Shell.Expansion
import MemberOrder.Shell.Grammar

/-!
Processes: scripts are run line by line, in the shell or in a shell of their own, which ends with a
status or by a signal.
-/

set_option autoImplicit false

namespace MemberOrder.Shell

/-- The names of signals by their numbers, from the first on, and how their ends are reported. -/
def signals : List (String × String) :=
  [("HUP", "Hangup"), ("INT", "Interrupt"), ("QUIT", "Quit"), ("ILL", "Illegal instruction"),
    ("TRAP", "Trace/breakpoint trap"), ("ABRT", "Aborted"), ("BUS", "Bus error"),
    ("FPE", "Floating point exception"), ("KILL", "Killed"), ("USR1", "User defined signal 1"),
    ("SEGV", "Segmentation fault"), ("USR2", "User defined signal 2"), ("PIPE", "Broken pipe"),
    ("ALRM", "Alarm clock"), ("TERM", "Terminated"), ("STKFLT", "Stack fault"),
    ("CHLD", "Child exited"), ("CONT", "Continued"), ("STOP", "Stopped (signal)"),
    ("TSTP", "Stopped"), ("TTIN", "Stopped (tty input)"), ("TTOU", "Stopped (tty output)"),
    ("URG", "Urgent I/O condition"), ("XCPU", "CPU time limit exceeded"),
    ("XFSZ", "File size limit exceeded"), ("VTALRM", "Virtual timer expired"),
    ("PROF", "Profiling timer expired"), ("WINCH", "Window changed"), ("IO", "I/O possible"),
    ("PWR", "Power failure"), ("SYS", "Bad system call")]

/-- Signals that end no process that does not look out for them. -/
def isHarmless (signal : Nat) : Bool := [0, 17, 18, 23, 28].contains signal

/-- The end of a process: the status that it ends with, or the signal that ends it. -/
inductive End
  | status (n : Nat)
  | signal (n : Nat)
deriving DecidableEq

/-- The status that a shell sees of the end of a process. A signal is reported, but for an interrupt
and a broken pipe. -/
def End.seen : End → Action Nat
  | .status n => return n
  | .signal n => do
    if n ≠ 2 && n ≠ 13 then
      let description := (signals[n - 1]?.map (·.2)).getD "Unknown signal"
      let _ ← write errorDescriptor (description.toList ++ ['\n'])
    return 128 + n

/-- Reads the next line of a script. -/
def nextLine (reading : Reading) : Action (Option (Option Command) × Reading) := do
  let session ← getSession
  let (result, reading) :=
    (readLine.run { reading with next := session.nextDocument }).run
  modifySession fun session =>
    { session with
      documents := reading.documents ++ session.documents
      nextDocument := reading.next }
  match result with
  | .ok line => return (line, { reading with documents := [] })
  | .error message =>
    modifySession fun session => { session with line := reading.line }
    fail ("Syntax error: ".toList ++ message.toList)

/-- Runs the lines of a script one after the other. -/
def runLines (machine : Machine) (tested : Bool) : Nat → Nat → Reading → Action Nat
  | 0, status, _ => return status
  | fuel + 1, status, reading => do
    match ← nextLine reading with
    | (none, _) => return status
    | (some none, reading) => runLines machine tested fuel status reading
    | (some (some command), reading) =>
      let status ← machine.run tested command
      runLines machine tested fuel status reading

/-- Runs a script. -/
def runScript (machine : Machine) (tested : Bool) (script : Text) : Action Nat :=
  runLines machine tested (script.length + 2) 0
    ⟨script, 1, .newline, false, [], [], 0⟩

/-- What has become of the shell when its commands are done: it does what is left to be done at its
end, and has the status that it ends with. -/
def conclude (machine : Machine) : Action Unit := do
  let session ← getSession
  match session.traps.lookup 0 with
  | none => pure ()
  | some script =>
    modifySession fun session =>
      { session with
        traps := session.traps.filter (·.1 != 0)
        leaving := some session.status
        builtin := none }
    match ← attempt (runScript machine false script) with
    | .error .exit => pure ()
    | .error .error => pure ()
    | .error (.died signal) => throw (.died signal)
    | .error (.killed shell signal) => throw (.killed shell signal)
    | _ => setStatus session.status

/-- Runs an action as a process of its own, in a changed copy of the session. -/
def process (machine : Machine) (change : Session → Session) (action : Action Nat) :
    Action End := do
  let result ← attempt (isolated change do
    match ← attempt action with
    | .ok status => setStatus status
    | .error (.died signal) => throw (.died signal)
    | .error (.killed shell signal) => throw (.killed shell signal)
    | .error _ => pure ()
    conclude machine
    return (← getSession).status)
  match result with
  | .ok status => return .status (status % 256)
  | .error (.died signal) => return .signal signal
  | .error stop => throw stop

/-- A shell inside a shell: it does not do what the outer one does on signals, and its jobs are its
own. -/
def Session.inner (session : Session) : Session :=
  { session with
    traps := session.traps.filter (·.2.isEmpty)
    outerTraps := some (session.outerTraps.getD session.traps)
    jobs := [] }

/-- The output of a command, without the line ends at its end. -/
def substituted (machine : Machine) (body : Option Command) : Action Text := do
  match body with
  | none =>
    modifySession fun session => { session with substituted := 0 }
    return []
  | some command =>
    let number ← addChannel (.kept [])
    let ending ← process machine
      (fun session => session.inner.lead outputDescriptor (some number))
      (machine.run false command)
    let status ← ending.seen
    modifySession fun session => { session with substituted := status }
    match (← get).channels[number]? with
    | some (.kept reversed) =>
      setChannel number .null
      return ((reversed.dropWhile (· = '\n')).reverse).filter (· != '\x00')
    | _ => return []

/-- What a part of a word stands for. -/
def expandPart (machine : Machine) (mode : Mode) : Part → Action (List Piece)
  | .literal c quoted => return [.char c quoted (mode.fields && mode.replaces && !quoted)]
  | .mark => return [.mark]
  | .parameter name use quoted => expandParameter machine mode name use quoted
  | .substitution body quoted => do
    return Piece.ofText mode quoted (← substituted machine body)
  | .arithmetic expression quoted => do
    let source ← machine.plain expression
    return Piece.ofText mode quoted (Octets.ofInt (← evaluateArithmetic source))

/-- The home directory, where a word begins with a tilde that stands for it. -/
def home? : Word → Action (Option (Text × Word))
  | .literal '~' false :: rest => do
    let isPath := match rest with
      | [] => true
      | .literal '/' false :: _ => true
      | _ => false
    if isPath then return (← value? "HOME".toList).map (·, rest) else return none
  | _ => return none

/-- What a word stands for. -/
def expandWord (machine : Machine) (mode : Mode) (word : Word) : Action (List Piece) := do
  match ← home? word with
  | some (path, rest) =>
    return path.map (.char · true false) ++ (← rest.flatMapM (expandPart machine mode))
  | none => word.flatMapM (expandPart machine mode)

/-- The fields of a word. -/
def Machine.fields (machine : Machine) (word : Word) : Action (List Text) := do
  let pieces ← machine.expand ⟨true, false⟩ word
  (divided (← separators) pieces).flatMapM pathsOf

end MemberOrder.Shell
