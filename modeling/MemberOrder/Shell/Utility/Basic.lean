import MemberOrder.Shell.State

/-!
What the programs of the system have in common: options, complaints and the files they read.
-/

set_option autoImplicit false

namespace MemberOrder.Shell.Utility

/-- Characters that have a meaning in a script. -/
def isMeaningful (c : Char) : Bool :=
  " !\"$&()*;<=>[\\^`|'?".toList.contains c

/-- Does a name have to be quoted to be read as one word? -/
def needsQuotes (name : Text) : Bool :=
  name.isEmpty || name.any isMeaningful || ["\x7b".toList, "\x7d".toList].contains name
    || ['#', '~'].contains (name.head?.getD 'a') || name.any fun c => c.toNat < 32 || c.toNat = 127

/-- The escape for a character that is not shown. -/
def shownControl (c : Char) : Text :=
  match c with
  | '\n' => "\\n".toList
  | '\t' => "\\t".toList
  | '\r' => "\\r".toList
  | _ =>
    let n := c.toNat
    ['\\', Char.ofNat (48 + n / 64), Char.ofNat (48 + n / 8 % 8), Char.ofNat (48 + n % 8)]

/-- A name in quotes. -/
def quoted (name : Text) : Text :=
  if name.contains '\'' && !name.any fun c => ['"', '$', '\x60', '\\', '!'].contains c then
    '"' :: name ++ ['"']
  else
    '\'' :: name.flatMap (fun c =>
      if c = '\'' then "'\\''".toList
      else if c.toNat < 32 || c.toNat = 127 then "'$'".toList ++ shownControl c ++ "''".toList
      else [c]) ++ ['\'']

/-- A name, in quotes where it needs them. -/
def shown (name : Text) : Text := if needsQuotes name then quoted name else name

/-- A name in the quotes of a message. -/
def cited (name : Text) : Text :=
  Octets.ofText ['‘'] ++ name ++ Octets.ofText ['’']

def print (t : Text) : Action Unit := do
  let _ ← write outputDescriptor t

/-- Complains, and gives the status of failure. -/
def complain (program : String) (message : Text) : Action Nat := do
  let _ ← write errorDescriptor (program.toList ++ ": ".toList ++ message ++ ['\n'])
  return 1

/-- Complains of how the program was called. -/
def misused (program : String) (message : Text) : Action Nat :=
  complain program
    (message ++ "\nTry '".toList ++ program.toList ++ " --help' for more information.".toList)

/-- The options and the other arguments of a program. -/
structure Arguments where
  options : List (Char × Text)
  operands : List Text

namespace Arguments

def has (arguments : Arguments) (option : Char) : Bool := arguments.options.any (·.1 == option)

/-- The last value that an option was given. -/
def value? (arguments : Arguments) (option : Char) : Option Text :=
  (arguments.options.reverse.find? (·.1 == option)).map (·.2)

/-- Reads the letters of one argument. -/
def readLetters (plain valued : List Char) (rest : List Text) :
    Text → Except Text (List (Char × Text) × List Text)
  | [] => .ok ([], rest)
  | c :: letters =>
    if valued.contains c then
      if letters.isEmpty then
        match rest with
        | value :: rest => .ok ([(c, value)], rest)
        | [] => .error ("option requires an argument -- '".toList ++ [c, '\''])
      else .ok ([(c, letters)], rest)
    else if plain.contains c then do
      let (options, rest) ← readLetters plain valued rest letters
      return ((c, []) :: options, rest)
    else .error ("invalid option -- '".toList ++ [c, '\''])

/-- Reads arguments; options may stand between the others. -/
def read (plain valued : List Char) : Nat → List Text → Except Text Arguments
  | 0, operands => .ok ⟨[], operands⟩
  | _, [] => .ok ⟨[], []⟩
  | fuel + 1, argument :: rest =>
    match argument with
    | ['-', '-'] => .ok ⟨[], rest⟩
    | '-' :: '-' :: _ => .error ("unrecognized option '".toList ++ argument ++ ['\''])
    | '-' :: c :: letters => do
      let (options, rest) ← readLetters plain valued rest (c :: letters)
      let others ← read plain valued fuel rest
      return { others with options := options ++ others.options }
    | _ => do
      let others ← read plain valued fuel rest
      return { others with operands := argument :: others.operands }

end Arguments

/-- Runs a program on its arguments. -/
def withArguments (program plain valued : String) (arguments : List Text)
    (run : Arguments → Action Nat) : Action Nat :=
  match Arguments.read plain.toList valued.toList arguments.length arguments with
  | .ok arguments => run arguments
  | .error message => misused program message

def inputDescriptor : Nat := 0

/-- The contents of a file, or what the input still gives. -/
def contents (path : Text) : Action (Except FileError Text) := do
  if path = ['-'] then
    match ← channel? inputDescriptor with
    | some (_, .file i _ _ _ _) =>
      if let some (.directory _ _) := (← get).files.node? i then return .error .isDirectory
    | _ => pure ()
    match ← readAll inputDescriptor with
    | some t => return .ok t
    | none => return .error .notOpen
  else
    match ← find path with
    | .error e => return .error e
    | .ok (_, node) => return node.contents.map Octets.ofBytes

/-- The file that a channel leads to. -/
def fileOf (descriptor : Nat) : Action (Option Inode) := do
  match ← channel? descriptor with
  | some (_, .file i _ _ _ _) => return some i
  | _ => return none

/-- The lines of a text, each with its end. -/
def lines (t : Text) : List Text :=
  let (all, last) := t.foldr
    (fun c ((all, current) : List Text × Text) =>
      if c = '\n' then
        (if current.isEmpty then all else current :: all, [c])
      else
        (all, c :: current))
    ([], [])
  if last.isEmpty then all else last :: all

end MemberOrder.Shell.Utility
