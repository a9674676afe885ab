import MemberOrder.Shell.Program

/-!
The commands that a shell does itself.
-/

set_option autoImplicit false

namespace MemberOrder.Shell

def regularBuiltins : List String :=
  ["[", "alias", "bg", "cd", "chdir", "command", "echo", "false", "fg", "getopts", "hash", "jobs",
    "kill", "printf", "pwd", "read", "test", "true", "type", "ulimit", "umask", "unalias", "wait"]

def isSpecialBuiltin (name : Text) : Bool := specialBuiltins.contains (String.ofList name)

def isBuiltin (name : Text) : Bool :=
  isSpecialBuiltin name || regularBuiltins.contains (String.ofList name)

/-- Writes the output of a builtin command, and gives its status. -/
def output (t : Text) (status : Nat) : Action Nat := do
  if ← write outputDescriptor t then return status
  warn ((← getSession).builtin.getD [] ++ ": I/O error".toList)
  return status ||| 1

/-- Reads options of single letters; the arguments that follow them, and the letters. -/
def builtinOptions (known : List Char) : List Text → Action (List Char × List Text)
  | [] => return ([], [])
  | argument :: rest =>
    match argument with
    | ['-', '-'] => return ([], rest)
    | '-' :: c :: letters => do
      match (c :: letters).find? fun letter => !known.contains letter with
      | some letter => fail ("Illegal option -".toList ++ [letter])
      | none =>
        let (others, rest) ← builtinOptions known rest
        return (c :: letters ++ others, rest)
    | _ => return ([], argument :: rest)

/-- A text in single quotes. -/
def singleQuoted (t : Text) : Text :=
  '\'' :: t.flatMap (fun c => if c = '\'' then "'\"'\"'".toList else [c]) ++ ['\'']

/-- Shows formatted arguments. -/
def printfCommand (arguments : List Text) : Action Nat := do
  let (_, arguments) ← builtinOptions [] arguments
  match arguments with
  | [] => fail "usage: printf format [arg ...]".toList
  | format :: arguments =>
    let shown := Format.formatted format arguments
    for warning in shown.warnings.reverse do
      warn warning
    match shown.failure with
    | some message =>
      warn message
      let _ ← write outputDescriptor shown.reversed.reverse
      setStatus errorStatus
      throw .error
    | none => output shown.reversed.reverse (if shown.warnings.isEmpty then 0 else 1)

/-- Changes the directory. -/
def changeDirectory (arguments : List Text) : Action Nat := do
  let (_, arguments) ← builtinOptions ['L', 'P'] arguments
  let previous := (← value? "OLDPWD".toList).getD []
  let (target, isShown) ← match arguments.head? with
    | none => pure ((← value? "HOME".toList).getD [], false)
    | some ['-'] => pure (previous, true)
    | some target => pure (target, false)
  let here ← here
  if target.isEmpty then
    return ← output (if isShown then here ++ ['\n'] else []) 0
  match ← find target with
  | .ok (directory, .directory _ _) =>
    let path := pathOf (← get).files directory
    modifySession fun session => { session with directory }
    assign "OLDPWD".toList here
    assign "PWD".toList path
    if isShown then output (path ++ ['\n']) 0 else return 0
  | _ => fail ("can't cd to ".toList ++ target)

/-- Ends the shell. -/
def exitCommand (arguments : List Text) : Action Nat := do
  let session ← getSession
  match arguments with
  | [] => setStatus (session.leaving.getD session.status)
  | argument :: _ => setStatus (← count argument)
  throw .exit

/-- Ends a function, or a script. -/
def returnCommand (arguments : List Text) : Action Nat := do
  match arguments with
  | [] => pure ()
  | argument :: _ => setStatus (← count argument)
  throw .leaveFunction

/-- Leaves loops, or goes on with their next round. -/
def leaveCommand (stop : Nat → Stop) (arguments : List Text) : Action Nat := do
  let n ← match arguments with
    | [] => pure 1
    | argument :: _ =>
      let n ← count argument
      if n = 0 then illegalNumber argument
      pure n
  let n := min n (← getSession).loops
  if n = 0 then return 0
  setStatus 0
  throw (stop n)

def shiftCommand (arguments : List Text) : Action Nat := do
  let n ← match arguments with
    | [] => pure 1
    | argument :: _ => count argument
  let session ← getSession
  if n > session.arguments.length then fail "can't shift that many".toList
  modifySession fun session => { session with arguments := session.arguments.drop n }
  return 0

/-- The variables that are set, as they are assigned. -/
def shownVariables (start : Text) (isShown : Variable → Bool) : Action Text := do
  let bindings := (← getSession).bindings.filter fun (_, binding) => isShown binding
  let bindings := bindings.mergeSort fun a b => Text.compareCodePoints a.1 b.1 != .gt
  return bindings.flatMap fun (name, binding) =>
    start ++ name ++ (match binding.value with
      | some value => '=' :: singleQuoted value
      | none => []) ++ ['\n']

/-- The options with what they are set to. -/
def shownOptions : Action Text := do
  let flags := (← getSession).flags
  return "Current option settings\n".toList ++ optionNames.flatMap fun (letter, name) =>
    name.toList ++ List.replicate (16 - name.length) ' '
      ++ (if flags.contains letter then "on\n" else "off\n").toList

/-- The commands that set the options as they are. -/
def optionCommands : Action Text := do
  let flags := (← getSession).flags
  return optionNames.flatMap fun (letter, name) =>
    (if flags.contains letter then "set -o " else "set +o ").toList ++ name.toList ++ ['\n']

/-- Sets options and arguments. -/
def setCommand (arguments : List Text) : Action Nat := do
  match arguments with
  | [] => return ← output (← shownVariables [] (·.value.isSome)) 0
  | [['-', 'o']] => return ← output (← shownOptions) 0
  | [['+', 'o']] => return ← output (← optionCommands) 0
  | _ => pure ()
  match readOptions false (arguments.length + 1) ⟨(← getSession).flags, arguments, false⟩ with
  | .error message => fail message
  | .ok (state, ended) =>
    modifySession fun session =>
      { session with
        flags := state.flags
        arguments := if ended && arguments.head? = some ['-', '-'] || !state.arguments.isEmpty then
            state.arguments
          else session.arguments }
    return 0

def badName {α : Type} (name : Text) : Action α := fail (name ++ ": bad variable name".toList)

def unsetCommand (arguments : List Text) : Action Nat := do
  let (letters, names) ← builtinOptions ['v', 'f'] arguments
  for operand in names do
    let name := if letters.contains 'f' then operand else operand.takeWhile (· != '=')
    if letters.contains 'f' then
      modifySession fun session =>
        { session with functions := session.functions.filter (·.1 != name) }
    else
      if !isName name then badName name
      if ((← binding? name).map (·.fixed)).getD false then fail (name ++ ": is read only".toList)
      modifySession (·.putVariable name none)
  return 0

/-- The name and the value of an argument that may assign. -/
def assignmentOf (argument : Text) : Text × Option Text :=
  let name := argument.takeWhile (· != '=')
  (name, if argument.contains '=' then some (argument.drop (name.length + 1)) else none)

/-- Marks variables, and gives them values. -/
def markCommand (start : String) (isMarked : Variable → Bool) (mark : Variable → Variable)
    (arguments : List Text) : Action Nat := do
  let (letters, arguments) ← builtinOptions ['p'] arguments
  if arguments.isEmpty || letters.contains 'p' then
    return ← output (← shownVariables start.toList isMarked) 0
  for argument in arguments do
    let (name, value) := assignmentOf argument
    if !isName name then badName name
    if let some value := value then assign name value
    let binding := (← binding? name).getD ⟨none, false, false⟩
    modifySession (·.putVariable name (some (mark binding)))
  return 0

/-- Hides variables for the rest of a function. -/
def localCommand (arguments : List Text) : Action Nat := do
  match (← getSession).hidden with
  | [] => fail "not in a function".toList
  | current :: outer =>
    let mut current := current
    for argument in arguments do
      let (name, value) := assignmentOf argument
      if name ≠ ['-'] then
        if !isName name then badName name
        let old ← binding? name
        if !current.any (·.1 == name) then current := (name, old) :: current
        modifySession fun session => { session with hidden := current :: outer }
        if let some value := value then assign name value
    return 0

/-- A character that is read, and whether it was escaped. -/
abbrev ReadChar := Char × Bool

/-- One line of a text, and what follows it if the line has an end. A backslash escapes a character,
or joins lines. -/
def readLineFrom (raw : Bool) : Text → List ReadChar × Option Text
  | [] => ([], none)
  | '\n' :: rest => ([], some rest)
  | '\\' :: c :: rest =>
    if raw then
      let (line, rest) := readLineFrom raw (c :: rest)
      (('\\', false) :: line, rest)
    else
      let (line, rest) := readLineFrom raw rest
      (if c = '\n' then line else (c, true) :: line, rest)
  | c :: rest =>
    let (line, rest) := readLineFrom raw rest
    ((c, false) :: line, rest)

/-- Divides a line among variables: the last one gets all that is left. -/
def lineFields (separators : Text) : Nat → List ReadChar → List Text
  | 0, _ => []
  | n + 1, line =>
    let isSeparator (c : ReadChar) : Bool := !c.2 && separators.contains c.1
    let isBlank (c : ReadChar) : Bool := isSeparator c && defaultSeparators.contains c.1
    let line := line.dropWhile isBlank
    let field := line.takeWhile fun c => !isSeparator c
    let rest := line.drop field.length
    let blanks := rest.takeWhile isBlank
    let next := match rest.drop blanks.length with
      | c :: others => if isSeparator c then others else c :: others
      | [] => []
    if n = 0 then
      let whole := (line.reverse.dropWhile isBlank).reverse
      if next.all isBlank then [field.map (·.1)] else [whole.map (·.1)]
    else field.map (·.1) :: lineFields separators n next

/-- Reads a line into variables. -/
def readCommandLine (arguments : List Text) : Action Nat := do
  let raw := arguments.any (· == ['-', 'r'])
  let arguments := match arguments with
    | ['-', 'p'] :: _ :: rest => rest
    | _ => arguments
  let (_, names) ← builtinOptions ['r', 'p'] arguments
  if names.isEmpty then fail "arg count".toList
  let (line, rest) := readLineFrom raw ((← readAll Utility.inputDescriptor).getD [])
  if let some rest := rest then unread Utility.inputDescriptor rest
  let fields := lineFields (← separators) names.length line
  for (name, i) in names.zipIdx do
    if !isName name then badName name
    assign name ((fields[i]?).getD [])
  return if rest.isSome then 0 else 1

/-- The number of a signal by its number or name. -/
def signal? (t : Text) : Option Nat :=
  if !t.isEmpty && t.all Char.isDigit then
    let n := (Arithmetic.readDigits 10 t).1
    if n < 65 then some n else none
  else
    let name := String.ofList (t.map Char.toUpper)
    if name = "EXIT" then some 0
    else (signals.findIdx? (·.1 == name)).map (· + 1)

def signalName (n : Nat) : Text :=
  if n = 0 then "EXIT".toList
  else (signals[n - 1]?.map (·.1.toList)).getD (Octets.ofNat n)

/-- Says what is to be done on signals and at the end. -/
def trapCommand (arguments : List Text) : Action Nat := do
  let (_, arguments) ← builtinOptions [] arguments
  match arguments with
  | [] =>
    let traps := (← getSession).traps.mergeSort fun a b => decide (a.1 ≤ b.1)
    output (traps.flatMap fun (n, script) =>
      "trap -- ".toList ++ singleQuoted script ++ ' ' :: signalName n ++ ['\n']) 0
  | first :: rest =>
    let isNumber := !first.isEmpty && first.all Char.isDigit
    let (action, names) : Option Text × List Text :=
      if rest.isEmpty || isNumber then (none, arguments)
      else (if first = ['-'] then none else some first, rest)
    for name in names do
      match signal? name with
      | none =>
        let _ ← write errorDescriptor ("trap: ".toList ++ name ++ ": bad trap\n".toList)
        return 1
      | some n =>
        modifySession fun session =>
          let others := session.traps.filter (·.1 != n)
          { session with
            traps := match action with
              | some script => (n, script) :: others
              | none => others }
    return 0

/-- Sends a signal to a shell. -/
def sendSignal (signal : Nat) : Action Unit := do
  let session ← getSession
  let traps := session.outerTraps.getD session.traps
  match traps.lookup signal, signal == 9 with
  | some [], false => pure ()
  | some _, false =>
    modify fun state => { state with pending := state.pending ++ [(session.number, signal)] }
  | _, _ => if !isHarmless signal then throw (.killed session.number signal)

def killUsage : Text :=
  "Usage: kill [-s sigspec | -signum | -sigspec] [pid | job]... or\nkill -l [exitstatus]".toList

def killCommand (arguments : List Text) : Action Nat := do
  let (signal, targets) ← match arguments with
    | [] => fail killUsage
    | first :: rest =>
      match first, rest with
      | ['-', '-'], _ => pure (15, rest)
      | ['-', 'l'], [] =>
        return ← output ('0' :: '\n' :: signals.flatMap fun (name, _) => name.toList ++ ['\n']) 0
      | ['-', 'l'], n :: _ =>
        let n ← count n
        return ← output (signalName (n % 128) ++ ['\n']) 0
      | ['-', 's'], name :: rest =>
        match signal? name with
        | some n => pure (n, rest)
        | none => fail ("invalid signal number or name: ".toList ++ name)
      | '-' :: c :: name, _ =>
        match signal? (c :: name) with
        | some n => pure (n, rest)
        | none => fail ("Illegal option -".toList ++ [c])
      | _, _ => pure (15, arguments)
  if targets.isEmpty then fail killUsage
  let mut status := 0
  for target in targets do
    if target.head? = some '%' then fail ("No such job: ".toList ++ target)
    let digits := if target.head? = some '-' then target.drop 1 else target
    if digits.isEmpty || !digits.all Char.isDigit then illegalNumber target
    if target = Octets.ofNat (← getSession).number then sendSignal signal
    else
      warn "No such process\n".toList
      status := 1
  return status

/-- Waits for jobs, which have all ended. -/
def waitCommand (arguments : List Text) : Action Nat := do
  let mut status := 0
  for argument in arguments do
    let job? ←
      if argument.head? = some '%' then pure (← getSession).jobs.head?
      else
        let n ← count argument
        pure ((← getSession).jobs.find? (·.number == n))
    status := (job?.map (·.status)).getD 127
  return status

/-- The mask of permissions in octal digits. -/
def shownMask (n : Nat) : Text :=
  let digits := Nat.toDigits 8 n
  List.replicate (4 - digits.length) '0' ++ digits

def maskCommand (arguments : List Text) : Action Nat := do
  match arguments with
  | [] => output (shownMask (← getSession).mask ++ ['\n']) 0
  | mode :: _ =>
    if mode = ['-', 'S'] then return ← output "u=rwx,g=rx,o=rx\n".toList 0
    if !mode.isEmpty && mode.all Format.isOctal then
      let mask := mode.foldl (fun n c => n * 8 + (c.toNat - 48)) 0
      modifySession fun session => { session with mask := mask % 512 }
      return 0
    else fail ("Illegal mode: ".toList ++ mode)

/-- What a name stands for, in words or so that it can be used again. -/
def describe (brief : Bool) (name : Text) : Action (Option Text) := do
  let session ← getSession
  let said (description : String) : Option Text :=
    some (if brief then name else name ++ description.toList)
  if keywords.contains (String.ofList name) then return said " is a shell keyword"
  else if (session.functions.lookup name).isSome then return said " is a shell function"
  else if isSpecialBuiltin name then return said " is a special shell builtin"
  else if isBuiltin name then return said " is a shell builtin"
  else
    match ← findProgram name with
    | .refused _ _ => return none
    | .program program =>
      let path := if name.contains '/' then name else "/usr/bin/".toList ++ program.toList
      return some (if brief then path else name ++ " is ".toList ++ path)

/-- Describes names. -/
def describeAll (brief : Bool) (names : List Text) : Action Nat := do
  let mut status := 0
  let mut text : Text := []
  for name in names do
    match ← describe brief name with
    | some description => text := text ++ description ++ ['\n']
    | none =>
      status := 127
      if !brief then text := text ++ name ++ ": not found\n".toList
  output text status

/-- Takes the next option from arguments. -/
def getoptsCommand (arguments : List Text) : Action Nat := do
  match arguments with
  | specification :: result :: rest =>
    let session ← getSession
    let words := if rest.isEmpty then session.arguments else rest
    let state := (← value? "OPTIND".toList).getD ['1']
    let offset := (Arithmetic.readDigits 10 ((← value? "OPTOFF".toList).getD ['1'])).1
    let index := (Arithmetic.readDigits 10 state).1
    let quiet := specification.head? = some ':'
    let finish (index : Nat) : Action Nat := do
      assign result ['?']
      assign "OPTIND".toList (Octets.ofNat index)
      assign "OPTOFF".toList ['1']
      return 1
    match words[index - 1]? with
    | none => finish index
    | some word =>
      if word = ['-', '-'] then finish (index + 1)
      else if word.head? ≠ some '-' || word.length < 2 then finish index
      else
        let letter := (word[offset]?).getD '?'
        let isLast := word.length ≤ offset + 1
        let (next, nextOffset) := if isLast then (index + 1, 1) else (index, offset + 1)
        let moveTo (index offset : Nat) : Action Unit := do
          assign "OPTIND".toList (Octets.ofNat index)
          assign "OPTOFF".toList (Octets.ofNat offset)
        let after := (specification.dropWhile (· != letter)).drop 1
        if letter = ':' || !specification.contains letter then
          moveTo next nextOffset
          assign result ['?']
          if quiet then assign "OPTARG".toList [letter]
          else
            let _ ← write errorDescriptor ("Illegal option -".toList ++ [letter, '\n'])
          return 0
        else if after.head? = some ':' then
          let value? := if isLast then words[index]? else some (word.drop (offset + 1))
          match value? with
          | some value =>
            moveTo (if isLast then index + 2 else index + 1) 1
            assign "OPTARG".toList value
            assign result [letter]
            return 0
          | none =>
            moveTo (index + 1) 1
            if quiet then
              assign "OPTARG".toList [letter]
              assign result [':']
            else
              let _ ← write errorDescriptor
                ("No arg for -".toList ++ [letter] ++ " option\n".toList)
              assign result ['?']
            return 0
        else
          moveTo next nextOffset
          assign result [letter]
          return 0
  | _ => fail "Usage: getopts optstring var [arg...]".toList

/-- Runs the commands of a file in the shell. -/
def sourceCommand (machine : Machine) (arguments : List Text) : Action Nat := do
  let (_, arguments) ← builtinOptions [] arguments
  match arguments with
  | [] => return 0
  | path :: _ =>
    if !path.contains '/' then fail (path ++ ": not found".toList)
    let script ← scriptOf path
    modifySession fun session => { session with builtin := some path }
    let result ← attempt (runScript machine false script)
    match result with
    | .ok status => return status
    | .error .leaveFunction => return (← getSession).status
    | .error stop => throw stop

/-- Runs a program in the stead of the shell. -/
def execCommand (machine : Machine) (arguments : List Text) : Action Nat := do
  match arguments with
  | [] => return 0
  | name :: rest =>
    match ← findProgram name with
    | .refused message status =>
      warn (name ++ ": ".toList ++ message)
      setStatus status
      modifySession fun session => { session with leaving := some status }
      throw .exit
    | .program program =>
      match ← runProgram machine startLimit program name rest with
      | .status n =>
        setStatus n
        modifySession fun session => { session with traps := session.traps.filter (·.1 != 0) }
        throw .exit
      | .signal n => throw (.died n)

/-- Runs a builtin command. -/
def runBuiltin (machine : Machine) (tested : Bool) (name : Text) (arguments : List Text) :
    Action Nat := do
  match String.ofList name with
  | ":" => return 0
  | "true" => return 0
  | "false" => return 1
  | "echo" => output (Format.echo arguments) 0
  | "printf" => printfCommand arguments
  | "test" => testStatus false arguments
  | "[" => testStatus true arguments
  | "cd" => changeDirectory arguments
  | "chdir" => changeDirectory arguments
  | "pwd" => output ((← here) ++ ['\n']) 0
  | "exit" => exitCommand arguments
  | "return" => returnCommand arguments
  | "break" => leaveCommand .leaveLoops arguments
  | "continue" => leaveCommand .nextRound arguments
  | "shift" => shiftCommand arguments
  | "set" => setCommand arguments
  | "unset" => unsetCommand arguments
  | "export" =>
    markCommand "export " (·.exported) (fun binding => { binding with exported := true }) arguments
  | "readonly" =>
    markCommand "readonly " (·.fixed) (fun binding => { binding with fixed := true }) arguments
  | "local" => localCommand arguments
  | "read" => readCommandLine arguments
  | "trap" => trapCommand arguments
  | "kill" => killCommand arguments
  | "wait" => waitCommand arguments
  | "umask" => maskCommand arguments
  | "type" => describeAll false arguments
  | "getopts" => getoptsCommand arguments
  | "eval" =>
    runScript machine tested (Text.joined [' '] arguments)
  | "." => sourceCommand machine arguments
  | "exec" => execCommand machine arguments
  | "fg" => fail "No current job".toList
  | "bg" => fail "No current job".toList
  | _ => return 0

end MemberOrder.Shell
