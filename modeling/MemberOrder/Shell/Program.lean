import MemberOrder.Shell.Process
import MemberOrder.Shell.Test
import MemberOrder.Shell.Utility.Calculation
import MemberOrder.Shell.Utility.Files
import MemberOrder.Shell.Utility.Streams

/-!
Programs of the system, of which the shell itself is one.
-/

set_option autoImplicit false

namespace MemberOrder.Shell

/-- The letters and names of the options of a shell. Two of them have no effect and no letter that
could be typed. -/
def optionNames : List (Char × String) :=
  [('e', "errexit"), ('f', "noglob"), ('I', "ignoreeof"), ('i', "interactive"), ('m', "monitor"),
    ('n', "noexec"), ('s', "stdin"), ('x', "xtrace"), ('v', "verbose"), ('V', "vi"), ('E', "emacs"),
    ('C', "noclobber"), ('a', "allexport"), ('b', "notify"), ('u', "nounset"),
    ('p', "privileged"), ('\x01', "nolog"), ('\x02', "debug")]

/-- What options have come to: those that are set, and the arguments that follow. -/
structure OptionState where
  flags : List Char
  arguments : List Text
  /-- A script follows as an argument. -/
  isScript : Bool

def OptionState.put (state : OptionState) (letter : Char) (isOn : Bool) : OptionState :=
  let others := state.flags.filter (· != letter)
  { state with flags := if isOn then letter :: others else others }

/-- Reads the letters of one argument that sets options. -/
def readOptionLetters (starts isOn : Bool) (state : OptionState) :
    Text → Except Text OptionState
  | [] => .ok state
  | 'c' :: letters =>
    if starts then readOptionLetters starts isOn { state with isScript := true } letters
    else .error "Illegal option -c".toList
  | 'l' :: letters =>
    if starts then readOptionLetters starts isOn state letters
    else .error "Illegal option -l".toList
  | 'o' :: letters =>
    match state.arguments with
    | [] => readOptionLetters starts isOn state letters
    | name :: rest =>
      match optionNames.find? (·.2 == String.ofList name) with
      | some (letter, _) =>
        readOptionLetters starts isOn ({ state with arguments := rest }.put letter isOn) letters
      | none => .error ("Illegal option -o ".toList ++ name)
  | letter :: letters =>
    if optionNames.any (·.1 == letter) then
      readOptionLetters starts isOn (state.put letter isOn) letters
    else .error ("Illegal option -".toList ++ [letter])

/-- Reads options. Gives also whether they were ended by a mark. -/
def readOptions (starts : Bool) : Nat → OptionState → Except Text (OptionState × Bool)
  | 0, state => .ok (state, false)
  | fuel + 1, state =>
    match state.arguments with
    | ['-'] :: rest =>
      let state := if starts then state else (state.put 'x' false).put 'v' false
      .ok ({ state with arguments := rest }, true)
    | ['-', '-'] :: rest => .ok ({ state with arguments := rest }, true)
    | ('-' :: letters) :: rest => do
      readOptions starts fuel
        (← readOptionLetters starts true { state with arguments := rest } letters)
    | ('+' :: letters) :: rest => do
      readOptions starts fuel
        (← readOptionLetters starts false { state with arguments := rest } letters)
    | _ => .ok (state, false)

def defaultPath : Text := "/usr/local/sbin:/usr/local/bin:/usr/sbin:/usr/bin:/sbin:/bin".toList

/-- The variables of a shell that is not started by another and runs in a directory. -/
def firstVariables (directory : Text) : List (Text × Variable) :=
  [("PATH".toList, ⟨some defaultPath, true, false⟩),
    ("HOME".toList, ⟨some "/root".toList, true, false⟩),
    ("PWD".toList, ⟨some directory, true, false⟩),
    ("OPTIND".toList, ⟨some ['1'], false, false⟩),
    ("PS4".toList, ⟨some ['+', ' '], false, false⟩),
    ("IFS".toList, ⟨some defaultSeparators, false, false⟩)]

/-- The session of a shell that begins, with the variables, descriptors and directory that it is
given. -/
def Session.fresh (name : Text) (number : Nat) (bindings : List (Text × Variable))
    (descriptors : List (Nat × Nat)) (directory : Inode) : Session where
  name := name
  number := number
  arguments := []
  bindings := bindings
  functions := []
  hidden := []
  descriptors := descriptors
  directory := directory
  status := 0
  substituted := 0
  line := 0
  builtin := none
  flags := []
  traps := []
  loops := 0
  jobs := []
  outerTraps := none
  leaving := none
  documents := []
  nextDocument := 0
  mask := 18

/-- The session of a shell that another one starts. -/
def Session.child (session : Session) (name : Text) (number : Nat) : Session :=
  let exported := session.bindings.filter (·.2.exported)
  let own := (firstVariables []).filter fun (name, binding) =>
    !binding.exported && !exported.any (·.1 == name)
  let child := fresh name number (exported ++ own) session.descriptors session.directory
  { child with traps := session.traps.filter (·.2.isEmpty), mask := session.mask }

/-- The description of why a file could not be opened or run. -/
def fileComplaint (missing : String) : FileError → Text
  | .missing => missing.toList
  | .notDirectory => missing.toList
  | e => e.description.toList

/-- The script in a file, without its zeros. A directory has none. -/
def scriptOf (path : Text) : Action Text := do
  let refuse (e : FileError) : Action Text :=
    fail ("cannot open ".toList ++ path ++ ": ".toList ++ fileComplaint "No such file" e)
  match ← find path with
  | .ok (_, .directory _ _) => return []
  | .ok (_, node) =>
    match node.contents with
    | .ok bytes => return (Octets.ofBytes bytes).filter (· != '\x00')
    | .error e => refuse e
  | .error e => refuse e

/-- What a shell does that is started with arguments. -/
def shellBody (machine : Machine) (arguments : List Text) : Action Nat := do
  match readOptions true (arguments.length + 1) ⟨[], arguments, false⟩ with
  | .error message => fail message
  | .ok (state, _) =>
    modifySession fun session => { session with flags := state.flags }
    match state.isScript, state.arguments with
    | true, [] => fail "-c requires an argument".toList
    | true, script :: rest =>
      modifySession fun session =>
        { session with name := rest.head?.getD session.name, arguments := rest.drop 1 }
      runScript machine false script
    | false, [] =>
      let script := (← readAll Utility.inputDescriptor).getD []
      runScript machine false script
    | false, path :: rest =>
      if state.flags.contains 's' then
        modifySession fun session => { session with arguments := path :: rest }
        let script := (← readAll Utility.inputDescriptor).getD []
        runScript machine false script
      else
        let script ← scriptOf path
        modifySession fun session => { session with name := path, arguments := rest }
        runScript machine false script

/-- Runs a shell in a session of its own. -/
def runShell (machine : Machine) (child : Nat → Session → Session) (arguments : List Text) :
    Action End := do
  let number := (← get).nextNumber
  modify fun state => { state with nextNumber := number + 1 }
  match ← attempt (process machine (child number) (shellBody machine arguments)) with
  | .ok ending => return ending
  | .error (.killed target signal) =>
    if target = number then return .signal signal else throw (.killed target signal)
  | .error stop => throw stop

/-- The variables that are set before a command, and the command. -/
def readEnvironment : List Text → List (Text × Text) × List Text
  | [] => ([], [])
  | argument :: rest =>
    if argument.contains '=' then
      let (others, command) := readEnvironment rest
      let name := argument.takeWhile (· != '=')
      ((name, argument.drop (name.length + 1)) :: others, command)
    else ([], argument :: rest)

/-- Runs a program that fails with a status if it writes while it has no output. -/
def withOutput (name : String) (failure : Nat) (action : Action Nat) : Action Nat := do
  if (← channel? outputDescriptor).isSome then action
  else
    let number ← addChannel (.kept [])
    let status ← isolated (·.lead outputDescriptor (some number)) action
    match (← get).channels[number]? with
    | some (.kept (_ :: _)) =>
      let _ ← Utility.complain name "write error: Bad file descriptor".toList
      return failure
    | _ => return status

/-- Runs a program by its name. `spelled` is how it was called. -/
def runProgram (machine : Machine) : Nat → String → Text → List Text → Action End
  | 0, _, _, _ => return .status 126
  | fuel + 1, name, spelled, arguments =>
    let plain (action : Action Nat) : Action End :=
      .status <$> if name = "cat" then action
        else withOutput name (if name = "ls" then errorStatus else 1) action
    match name with
    | "sh" =>
      runShell machine (fun number session => session.child spelled number) arguments
    | "env" => do
      let cleared := arguments.head? = some "-i".toList
      let (bindings, command) := readEnvironment (if cleared then arguments.drop 1 else arguments)
      isolated (fun session =>
        let session := if cleared then { session with bindings := [] } else session
        bindings.foldl
          (fun session (name, value) => session.putVariable name (some ⟨some value, true, false⟩))
          session) do
        match command with
        | [] =>
          let exported := (← getSession).bindings.filter (·.2.exported)
          Utility.print (exported.reverse.flatMap fun (name, binding) =>
            name ++ '=' :: binding.value.getD [] ++ ['\n'])
          return .status 0
        | word :: rest =>
          match Host.programNames.find? (·.toList == word) with
          | some name => runProgram machine fuel name word rest
          | none =>
            let _ ← Utility.complain "env"
              (Utility.cited word ++ ": No such file or directory".toList)
            return .status 127
    | "true" => return .status 0
    | "false" => return .status 1
    | "echo" => do
      Utility.print (Format.echo arguments)
      return .status 0
    | "printf" => do
      let shown := Format.formatted (arguments.head?.getD []) (arguments.drop 1)
      Utility.print shown.reversed.reverse
      return .status (if shown.warnings.isEmpty then 0 else 1)
    | "test" => plain (testStatus false arguments)
    | "[" => plain (testStatus true arguments)
    | "pwd" => do
      Utility.print ((← here) ++ ['\n'])
      return .status 0
    | "chmod" => return .status 0
    | "cat" => plain (Utility.cat arguments)
    | "head" => plain (Utility.portion "head" false arguments)
    | "tail" => plain (Utility.portion "tail" true arguments)
    | "wc" => plain (Utility.wc arguments)
    | "tee" => plain (Utility.tee arguments)
    | "tr" => plain (Utility.tr arguments)
    | "sort" => plain (Utility.sort arguments)
    | "seq" => plain (Utility.seq arguments)
    | "expr" => plain (Utility.expr arguments)
    | "basename" => plain (Utility.basename arguments)
    | "dirname" => plain (Utility.dirname arguments)
    | "sleep" => plain (Utility.sleep arguments)
    | "touch" => plain (Utility.touch arguments)
    | "mkdir" => plain (Utility.mkdir arguments)
    | "rmdir" => plain (Utility.rmdir arguments)
    | "rm" => plain (Utility.rm arguments)
    | "ln" => plain (Utility.ln arguments)
    | "cp" => plain (Utility.transferAll "cp" false arguments)
    | "mv" => plain (Utility.transferAll "mv" true arguments)
    | "ls" => plain (Utility.ls arguments)
    | _ => return .status 126

/-- How many programs may be started one by the other. -/
def startLimit : Nat := 100

/-- What a name is found to be: a program, or nothing that can be run, and the status of that. -/
inductive Found
  | program (name : String)
  | refused (message : Text) (status : Nat)

/-- Looks for a program in a directory of the path. -/
def findIn (directory name : Text) : Action (Except FileError String) := do
  let path := if directory.isEmpty then name else directory ++ '/' :: name
  match ← find path with
  | .error e => return .error e
  | .ok (i, _) =>
    match Host.program? i with
    | some program => return .ok program
    | none => return .error .denied

/-- Looks for the program that a name stands for. -/
def findProgram (name : Text) : Action Found := do
  if name.contains '/' then
    match ← findIn [] name with
    | .ok program => return .program program
    | .error e => return .refused (fileComplaint "not found" e) (if e = .denied then 126 else 127)
  else
    let directories := Text.pieces ':' ((← value? "PATH".toList).getD [])
    let results ← directories.mapM fun directory => findIn directory name
    match results.findSome? Except.toOption with
    | some program => return .program program
    | none =>
      let serious := results.filterMap fun
        | .error .missing => none
        | .error .notDirectory => none
        | .error e => some e
        | .ok _ => none
      return .refused (fileComplaint "not found" (serious.getLast?.getD .missing)) 127

end MemberOrder.Shell
