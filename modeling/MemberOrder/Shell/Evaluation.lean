import MemberOrder.Shell.Builtin

/-!
Running commands. The machine that runs them and expands words is built up to a depth, so that
commands inside commands are run by a machine of less depth.
-/

set_option autoImplicit false

namespace MemberOrder.Shell

/-- A redirection whose word is expanded. -/
inductive Prepared
  | file (opening : Opening) (path : Text)
  | descriptor (number : Option Nat)
  | text (t : Text)

/-- Expands the words of redirections. -/
def prepare (machine : Machine) (redirections : List Redirection) :
    Action (List (Nat × Prepared)) :=
  redirections.mapM fun (.mk descriptor target) => do
    match target with
    | .file opening path => return (descriptor, .file opening (← machine.plain path))
    | .descriptor word =>
      match ← machine.plain word with
      | ['-'] => return (descriptor, .descriptor none)
      | [c] =>
        if c.isDigit then return (descriptor, .descriptor (some (c.toNat - 48)))
        else fail "Syntax error: Bad fd number".toList
      | _ => fail "Syntax error: Bad fd number".toList
    | .document number =>
      let word := ((← getSession).documents.lookup number).getD []
      return (descriptor, .text (← machine.plain word))

/-- Leads descriptors elsewhere, one after the other. Where the old ones are put aside, a descriptor
is closed before it is led to another. -/
def redirect (redirections : List (Nat × Prepared)) (putsAside : Bool) : Action Unit := do
  let mut moved : List Nat := []
  for (descriptor, prepared) in redirections do
    let isFirst := !moved.contains descriptor
    moved := descriptor :: moved
    match prepared with
    | .file opening path =>
      match ← openFile opening path with
      | .ok channel =>
        let number ← addChannel channel
        modifySession (·.lead descriptor (some number))
      | .error e =>
        if opening = .input then
          fail ("cannot open ".toList ++ path ++ ": ".toList ++ fileComplaint "No such file" e)
        else
          fail ("cannot create ".toList ++ path ++ ": ".toList
            ++ fileComplaint "Directory nonexistent" e)
    | .descriptor none => modifySession (·.lead descriptor none)
    | .descriptor (some other) =>
      match (← getSession).descriptors.lookup other with
      | some number => modifySession (·.lead descriptor (some number))
      | none =>
        if putsAside && isFirst && other != descriptor then
          modifySession (·.lead descriptor none)
        fail (Octets.ofNat other ++ ": Bad file descriptor".toList)
    | .text t =>
      let number ← addChannel (.given t)
      modifySession (·.lead descriptor (some number))

/-- Runs an action with descriptors that lead elsewhere, also afterwards where they are kept. Gives
nothing if they cannot be led there. -/
def redirected {α : Type} (redirections : List (Nat × Prepared)) (keeps : Bool)
    (action : Action α) : Action (Option α) := do
  let descriptors := (← getSession).descriptors
  let restore : Action Unit := modifySession fun session => { session with descriptors }
  match ← attempt (redirect redirections true) with
  | .error .error =>
    restore
    return none
  | .error stop => throw stop
  | .ok () =>
    let result ← attempt action
    if !keeps then restore
    match result with
    | .ok a => return some a
    | .error stop => throw stop

/-- Notes the line of a command. -/
def atLine (line : Nat) : Action Unit := modifySession fun session => { session with line }

/-- Commands whose arguments may be assignments. -/
def assigns (words : List Text) : Bool :=
  match words.dropWhile (· == "command".toList) with
  | name :: _ => ["export", "readonly", "local", "alias"].contains (String.ofList name)
  | [] => false

/-- Expands the words of a command. -/
def commandFields (machine : Machine) (words : List Word) : Action (List Text) :=
  words.foldlM
    (fun fields word => do
      match Word.assignment? word with
      | some (name, value) =>
        if assigns fields then
          return fields ++ [name ++ '=' :: (← machine.plain value)]
        else return fields ++ (← machine.fields word)
      | none => return fields ++ (← machine.fields word))
    []

def commandWord : Text := "command".toList

/-- The words of a command behind a word that keeps functions away, and whether it was there. -/
def withoutCommandWord : Nat → List Text → List Text × Bool
  | 0, words => (words, false)
  | fuel + 1, words =>
    let behind (rest : List Text) : List Text × Bool := ((withoutCommandWord fuel rest).1, true)
    match words with
    | [] => ([], false)
    | first :: rest =>
      if first = commandWord then
        match rest with
        | [] => (words, false)
        | ['-', 'p'] :: rest => behind rest
        | ['-', '-'] :: rest => behind rest
        | ('-' :: _ :: _) :: _ => (words, false)
        | _ => behind rest
      else (words, false)

/-- Runs the word itself: without further words it does nothing, and with an option it says what a
name stands for. -/
def runCommandWord (arguments : List Text) : Action Nat := do
  let outer := (← getSession).builtin
  modifySession fun session => { session with builtin := some commandWord }
  let status ← match arguments with
    | ['-', 'v'] :: names => describeAll true (names.take 1)
    | ['-', 'V'] :: names => describeAll false (names.take 1)
    | ('-' :: c :: _) :: _ => do
      warn ("Illegal option -".toList ++ [c])
      pure errorStatus
    | _ => pure 0
  modifySession fun session => { session with builtin := outer }
  return status

/-- Runs a function. -/
def callFunction (machine : Machine) (tested : Bool) (body : Command)
    (arguments : List Text) : Action Nat := do
  let outer ← getSession
  modifySession fun session =>
    { session with
      arguments
      loops := 0
      hidden := [] :: session.hidden }
  let result ← attempt (machine.run tested body)
  let hidden := ((← getSession).hidden.head?).getD []
  modifySession fun session =>
    let session := hidden.foldl (fun session (name, old) => session.putVariable name old) session
    { session with
      arguments := outer.arguments
      loops := outer.loops
      hidden := outer.hidden }
  match result with
  | .ok status => return status
  | .error .leaveFunction => return (← getSession).status
  | .error stop => throw stop

/-- Runs a builtin command by its name. A complaint ends the shell where it is special. -/
def callBuiltin (machine : Machine) (tested isSpecial : Bool) (name : Text)
    (arguments : List Text) : Action Nat := do
  let outer := (← getSession).builtin
  modifySession fun session => { session with builtin := some name }
  let result ← attempt (runBuiltin machine tested name arguments)
  modifySession fun session => { session with builtin := outer }
  match result with
  | .ok status => return status
  | .error .error => if isSpecial then throw .error else return (← getSession).status
  | .error stop => throw stop

/-- Runs a program by its name. -/
def callProgram (machine : Machine) (name : Text) (arguments : List Text) : Action Nat := do
  match ← findProgram name with
  | .refused message status =>
    warn (name ++ ": ".toList ++ message)
    return status
  | .program program =>
    (← isolated id (runProgram machine startLimit program name arguments)).seen

/-- What a command's name stands for. -/
inductive Callee
  | nothing
  | function (body : Command)
  | builtin (isSpecial : Bool)
  | program

/-- Finds out what the first of the words stands for. -/
def callee (words : List Text) (isPlain : Bool) : Action Callee := do
  match words with
  | [] => return .nothing
  | name :: _ =>
    match (← getSession).functions.lookup name, isPlain with
    | some body, true => return .function body
    | _, _ =>
      if isBuiltin name then return .builtin (isSpecialBuiltin name && isPlain)
      else return .program

/-- Writes the words of a command that is about to run, where that is asked for. -/
def trace (descriptors : List (Nat × Nat)) (words : List Text) : Action Unit := do
  if ← hasFlag 'x' then
    let start := (← value? "PS4".toList).getD []
    isolated (fun session => { session with descriptors }) do
      let _ ← write errorDescriptor (start ++ Text.joined [' '] words ++ ['\n'])

/-- Expands an assignment. -/
def expandAssignment (machine : Machine) (word : Word) : Action (Text × Text) := do
  match Word.assignment? word with
  | some (name, value) => return (name, ← machine.plain value)
  | none => return ([], [])

/-- Runs a simple command. -/
def runSimple (machine : Machine) (tested : Bool) (line : Nat) (assignments words : List Word)
    (redirections : List Redirection) : Action Nat := do
  atLine line
  modifySession fun session => { session with substituted := 0 }
  let fields ← commandFields machine words
  let (call, isForced) := withoutCommandWord fields.length fields
  let callee ← callee call (!isForced)
  let isSpecial := match callee with
    | .builtin isSpecial => isSpecial
    | _ => false
  let isTemporary := match callee with
    | .nothing => false
    | _ => !isSpecial
  let descriptors := (← getSession).descriptors
  let prepared ← prepare machine redirections
  let saved ← assignments.mapM fun word => do
    let name := ((Word.assignment? word).map (·.1)).getD []
    return (name, ← binding? name)
  let result ← attempt (redirected prepared (call == ["exec".toList]) do
    let mut shown : List Text := []
    for word in assignments do
      let (name, value) ← expandAssignment machine word
      assign name value
      if isTemporary then
        modifySession (·.putVariable name (some ⟨some value, true, false⟩))
      shown := shown ++ [name ++ '=' :: value]
    if !(shown ++ fields).isEmpty then trace descriptors (shown ++ fields)
    match callee with
    | .nothing => return (← getSession).substituted
    | .function body => callFunction machine tested body (call.drop 1)
    | .builtin isSpecial =>
      let name := call.head?.getD []
      if name = commandWord then runCommandWord (call.drop 1)
      else callBuiltin machine tested isSpecial name (call.drop 1)
    | .program => callProgram machine (call.head?.getD []) (call.drop 1))
  if isTemporary then
    modifySession fun session =>
      saved.foldl (fun session (name, old) => session.putVariable name old) session
  match result with
  | .ok (some status) => return status
  | .ok none =>
    setStatus errorStatus
    if isSpecial then throw .error
    return errorStatus
  | .error stop => throw stop

/-- Runs an action inside a loop: its result, unless the loop is left by it. -/
def inLoop (action : Action Nat) : Action (Nat × Bool) := do
  match ← attempt action with
  | .ok status => return (status, true)
  | .error (.leaveLoops n) => if n > 1 then throw (.leaveLoops (n - 1)) else return (0, false)
  | .error (.nextRound n) => if n > 1 then throw (.nextRound (n - 1)) else return (0, true)
  | .error stop => throw stop

/-- Runs an action that is a loop. -/
def asLoop {α : Type} (action : Action α) : Action α := do
  modifySession fun session => { session with loops := session.loops + 1 }
  let result ← attempt action
  modifySession fun session => { session with loops := session.loops - 1 }
  match result with
  | .ok a => return a
  | .error stop => throw stop

/-- Runs a body as long as a test succeeds, or as long as it fails. -/
def runRounds (machine : Machine) (tested whileFails : Bool) (test body : Command) :
    Nat → Nat → Action Nat
  | 0, status => return status
  | rounds + 1, status => do
    let (status, goesOn) ← match ← attempt (machine.run true test) with
      | .ok result =>
        if (result = 0) = whileFails then pure (status, false)
        else inLoop (machine.run tested body)
      | .error stop => inLoop (throw stop)
    if goesOn then runRounds machine tested whileFails test body rounds status else return status

/-- Runs a body for every one of some values of a variable. -/
def runIteration (machine : Machine) (tested : Bool) (name : Text) (body : Command) :
    Nat → List Text → Action Nat
  | status, [] => return status
  | _, value :: rest => do
    assign name value
    match ← inLoop (machine.run tested body) with
    | (status, true) => runIteration machine tested name body status rest
    | (status, false) => return status

/-- The body of the first branch that has a pattern for a text. -/
def chooseBranch (machine : Machine) (subject : Text) : List Branch → Action (Option Command)
  | [] => return none
  | .mk patterns body :: rest => do
    let found ← patterns.anyM fun word => do
      let pieces ← machine.expand ⟨false, false⟩ word
      return (Piece.pattern pieces).accepts subject
    if found then return body else chooseBranch machine subject rest

/-- Makes a job of a command that has run. -/
def addJob (ending : End) : Action Nat := do
  let number := (← get).nextNumber
  modify fun state => { state with nextNumber := number + 1 }
  let status := match ending with
    | .status n => n
    | .signal n => 128 + n
  modifySession fun session => { session with jobs := ⟨number, status⟩ :: session.jobs }
  return 0

/-- A session that has an empty input. -/
def withoutInput (channel : Nat) (session : Session) : Session :=
  session.lead Utility.inputDescriptor (some channel)

/-- Runs a command in a shell inside the shell. -/
def runInner (machine : Machine) (tested : Bool) (body : Command)
    (redirections : List (Nat × Prepared)) (background : Bool) : Action Nat := do
  let null ← addChannel .null
  let change (session : Session) : Session :=
    if background then withoutInput null session.inner else session.inner
  let ending ← process machine change do
    redirect redirections false
    machine.run (tested && !background) body
  if background then addJob ending else ending.seen

/-- Runs commands, each of which reads what the one before writes. -/
def runPipeline (machine : Machine) (tested : Bool) (status : Nat) (input : Option Nat) :
    List Command → Action Nat
  | [] => return status
  | command :: rest => do
    let output ← if rest.isEmpty then pure none else some <$> addChannel (.kept [])
    let change (session : Session) : Session :=
      let session := session.inner
      let session := match input with
        | some number => session.lead Utility.inputDescriptor (some number)
        | none => session
      match output with
      | some number => session.lead outputDescriptor (some number)
      | none => session
    let ending ← process machine change (machine.run tested command)
    let status ← ending.seen
    if let some number := output then
      match (← get).channels[number]? with
      | some (.kept reversed) => setChannel number (.given reversed.reverse)
      | _ => pure ()
    runPipeline machine tested status output rest

/-- Does what is to be done on signals that have come. -/
def seeSignals (machine : Machine) : Action Unit := do
  let state ← get
  if state.session.outerTraps.isNone then
    let (mine, others) := state.pending.partition (·.1 == state.session.number)
    set { state with pending := others }
    for (_, signal) in mine do
      match (← getSession).traps.lookup signal with
      | none => pure ()
      | some script =>
        let before ← getSession
        modifySession fun session => { session with leaving := some before.status }
        let _ ← runScript machine false script
        modifySession fun session =>
          { session with leaving := before.leaving, status := before.status }

/-- Ends the shell after a failure that nobody looked at, where that is asked for. -/
def checkFailure (tested : Bool) (status : Nat) : Action Nat := do
  setStatus status
  if status ≠ 0 && !tested && (← hasFlag 'e') then throw .exit
  return status

/-- Runs a command. -/
def runCommand (machine : Machine) (tested : Bool) (command : Command) : Action Nat := do
  if ← hasFlag 'n' then return (← getSession).status
  seeSignals machine
  let status ← match command with
    | .simple line assignments words redirections =>
      checkFailure tested (← runSimple machine tested line assignments words redirections)
    | .pipeline elements background =>
      if background then
        let null ← addChannel .null
        let ending ← process machine (fun session => withoutInput null session.inner)
          (runPipeline machine false 0 none elements)
        addJob ending
      else checkFailure tested (← runPipeline machine tested 0 none elements)
    | .subshell line body redirections background =>
      if !background then atLine line
      let prepared ← prepare machine redirections
      checkFailure tested (← runInner machine tested body prepared background)
    | .redirected line body redirections =>
      atLine line
      let prepared ← prepare machine redirections
      match ← redirected prepared false (machine.run tested body) with
      | some status => pure status
      | none => checkFailure tested errorStatus
    | .sequence first second =>
      let _ ← machine.run tested first
      machine.run tested second
    | .both first second =>
      let status ← machine.run true first
      if status = 0 then machine.run tested second else pure status
    | .either first second =>
      let status ← machine.run true first
      if status = 0 then pure status else machine.run tested second
    | .negated body => pure (if (← machine.run true body) = 0 then 1 else 0)
    | .conditional test success failure =>
      if (← machine.run true test) = 0 then machine.run tested success
      else
        match failure with
        | some command => machine.run tested command
        | none => pure 0
    | .loop whileFails test body =>
      asLoop (runRounds machine tested whileFails test body roundLimit 0)
    | .iteration line name words body =>
      atLine line
      let values ← words.flatMapM machine.fields
      asLoop (runIteration machine tested name body 0 values)
    | .choice line subject branches =>
      atLine line
      let text ← machine.plain subject
      match ← chooseBranch machine text branches with
      | some body => machine.run tested body
      | none => pure 0
    | .function name body =>
      modifySession fun session =>
        { session with
          functions := (name, body) :: session.functions.filter (·.1 != name) }
      pure 0
  setStatus status
  seeSignals machine
  return status

/-- The machine that runs commands up to a depth. -/
def Machine.upTo : Nat → Machine
  | 0 => ⟨fun _ _ => throw .exit, fun _ _ => throw .exit⟩
  | depth + 1 =>
    let machine := upTo depth
    ⟨runCommand machine, expandWord machine⟩

/-- How deep commands may run inside each other. -/
def depthLimit : Nat := 1000

/-- What has become of a program: how it ended, what it wrote, and the files after it. -/
structure Completion where
  ending : End
  output : List UInt8
  errors : List UInt8
  files : FileSystem

/-- Runs a program on files. -/
def complete (files : FileSystem) (name : String) (spelled : Text) (arguments : List Text) :
    Completion :=
  let initial := firstVariables (pathOf files files.working)
  let session :=
    Session.fresh spelled 1 initial [(0, 0), (1, 1), (2, 2)] files.working
  let state : State := ⟨files, #[.null, .kept [], .kept []], session, 2, []⟩
  let action := runProgram (Machine.upTo depthLimit) startLimit name spelled arguments
  let (result, state) := (action.run).run state
  let written (number : Nat) : List UInt8 := match state.channels[number]? with
    | some (.kept reversed) => Octets.toBytes reversed.reverse
    | _ => []
  let ending := match result with
    | .ok ending => ending
    | .error _ => .status errorStatus
  ⟨ending, written 1, written 2, state.files⟩

end MemberOrder.Shell
