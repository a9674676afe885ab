import MemberOrder.Shell.Arithmetic
import MemberOrder.Shell.Pattern

/-!
What words stand for: parameters, substitutions and arithmetic are put in, the result is divided
into fields, and fields that are patterns become the names of files.
-/

set_option autoImplicit false

namespace MemberOrder.Shell

/-- A character of an expanded word: one that is quoted is no part of a pattern, and only one that
was put in divides fields. -/
inductive Piece
  | char (c : Char) (quoted divides : Bool)
  /-- There is a field here, be it empty. -/
  | mark
  /-- A field ends here, and another begins. -/
  | boundary
  /-- A field ends here, if there is one. -/
  | gap
deriving DecidableEq

/-- How a word is expanded: into fields or not, and whether it is a word that a parameter is
replaced by. -/
structure Mode where
  fields : Bool
  replaces : Bool
deriving DecidableEq

/-- What runs commands and expands words. -/
structure Machine where
  /-- Runs a command whose failure is looked at, or is not. -/
  run : Bool → Command → Action Nat
  expand : Mode → Word → Action (List Piece)

namespace Piece

/-- The text of pieces. -/
def text (pieces : List Piece) : Text :=
  pieces.filterMap fun
    | .char c _ _ => some c
    | _ => none

/-- The pattern that pieces spell: a backslash stands before what is quoted. -/
def patternText (pieces : List Piece) : Text :=
  pieces.flatMap fun
    | .char c true _ => ['\\', c]
    | .char c false _ => [c]
    | _ => []

def pattern (pieces : List Piece) : Pattern := Pattern.ofText (patternText pieces)

/-- The pieces of a text that is put in. -/
def ofText (mode : Mode) (quoted : Bool) (t : Text) : List Piece :=
  t.map fun c => .char c quoted (mode.fields && !quoted)

end Piece

/-- Fields that are being divided: the current one, its last piece first, whether it is there even
if empty, whether a separator may still be passed over, and the fields before, the last first. -/
structure Division where
  current : List Piece
  forced : Bool
  absorbs : Bool
  fields : List (List Piece)

namespace Division

def close (d : Division) (forced absorbs : Bool) : Division :=
  ⟨[], forced, absorbs, d.current.reverse :: d.fields⟩

def step (separators : Text) (d : Division) (piece : Piece) : Division :=
  match piece with
  | .boundary => d.close true false
  | .gap => if d.current.isEmpty && !d.forced then d else d.close false true
  | .mark => { d with current := piece :: d.current, absorbs := false }
  | .char c _ divides =>
    if divides && separators.contains c then
      if defaultSeparators.contains c then
        if d.current.isEmpty && !d.forced then d else d.close false true
      else if d.absorbs && d.current.isEmpty then { d with absorbs := false }
      else d.close false false
    else { d with current := piece :: d.current, absorbs := false }

def finish (d : Division) : List (List Piece) :=
  if d.current.isEmpty && !d.forced then d.fields.reverse else (d.close false false).fields.reverse

end Division

/-- Divides pieces into fields. -/
def divided (separators : Text) (pieces : List Piece) : List (List Piece) :=
  (pieces.foldl (Division.step separators) ⟨[], false, false, []⟩).finish

/-- The components of a path that is a pattern: their patterns, with the slashes before each. -/
def pathComponents (pieces : List Piece) : List (Text × List Piece) :=
  let isSlash : Piece → Bool
    | .char c _ _ => c = '/'
    | _ => false
  let start : List (Text × List Piece) := [([], [])]
  (pieces.foldl
    (fun (components : List (Text × List Piece)) piece =>
      match components with
      | [] => [([], [piece])]
      | (slashes, component) :: others =>
        if isSlash piece then
          if component.isEmpty then (slashes ++ ['/'], []) :: others
          else (['/'], []) :: (slashes, component) :: others
        else (slashes, component ++ [piece]) :: others)
    start).reverse

/-- The names in the directory at a path that a pattern stands for. Names that begin with a point
are shown only when the pattern begins with one. -/
def matchingNames (path : Text) (pattern : Pattern) : Action (List Text) := do
  match ← find (if path.isEmpty then ['.'] else path) with
  | .ok (_, .directory _ entries) =>
    let names := namesOf entries
    let hidden := pattern.head? == some (.char '.')
    let names := if hidden then ['.'] :: ['.', '.'] :: names else names.filter (·.head? != some '.')
    return names.filter pattern.accepts
  | _ => return []

/-- The paths that the components of a pattern lead to from paths. -/
def matchingPaths (paths : List Text) : List (Text × List Piece) → Action (List Text)
  | [] => return paths
  | (slashes, component) :: rest => do
    let pattern := Piece.pattern component
    let next ←
      if pattern.isOpen then
        paths.flatMapM fun path => do
          return (← matchingNames (path ++ slashes) pattern).map (path ++ slashes ++ ·)
      else
        (paths.map fun path => path ++ slashes ++ Piece.text component).filterM fun path => do
          return (← find path).toBool
    matchingPaths next rest

/-- The names of files that a field stands for, or the field itself. -/
def pathsOf (field : List Piece) : Action (List Text) := do
  let plain := Piece.text field
  if (← hasFlag 'f') || !(Piece.pattern field).isOpen then return [plain]
  let paths ← matchingPaths [[]] (pathComponents field)
  let paths := paths.mergeSort fun a b => Text.compareCodePoints a b != .gt
  return if paths.isEmpty then [plain] else paths

/-- The text of the arguments, with the first separator between them. -/
def joinedArguments : Action Text := do
  let separator := match ← value? "IFS".toList with
    | some separators => separators.take 1
    | none => [' ']
  return Text.joined separator (← getSession).arguments

/-- The pieces of all the arguments: as one text, as a field for each of them, or as fields where
there is something in them. -/
def argumentPieces (mode : Mode) (isList quoted : Bool) : Action (List Piece) := do
  if !mode.fields || (quoted && !isList) then
    return Piece.ofText mode quoted (← joinedArguments)
  match (← getSession).arguments.map (Piece.ofText mode quoted) with
  | [] => return []
  | first :: others =>
    let between : Piece := if quoted then .boundary else .gap
    let pieces := first ++ others.flatMap (between :: ·)
    return if quoted then .mark :: pieces ++ [.mark] else pieces

/-- The value of a parameter that is set. -/
def parameterValue? (name : Text) : Action (Option Text) := do
  let session ← getSession
  match name with
  | ['?'] => return some (Octets.ofNat session.status)
  | ['$'] => return some (Octets.ofNat session.number)
  | ['#'] => return some (Octets.ofNat session.arguments.length)
  | ['!'] => return session.jobs.head?.map fun job => Octets.ofNat job.number
  | ['-'] => return some session.flags
  | ['@'] => some <$> joinedArguments
  | ['*'] => some <$> joinedArguments
  | _ =>
    if name.all Char.isDigit then
      match (Arithmetic.readDigits 10 name).1 with
      | 0 => return some session.name
      | n + 1 => return session.arguments[n]?
    else value? name

def isArguments (name : Text) : Bool := name == ['@'] || name == ['*']

/-- Complains of a parameter that is not set. -/
def unset {α : Type} (name : Text) (alsoEmpty : Bool) (message : Text) : Action α :=
  let message := if message.isEmpty then
      "parameter not set".toList ++ if alsoEmpty then " or null".toList else []
    else message
  fail (name ++ ": ".toList ++ message)

/-- A word that is not divided into fields. -/
def Machine.plain (machine : Machine) (word : Word) : Action Text := do
  return Piece.text (← machine.expand ⟨false, false⟩ word)

/-- The pieces of a parameter's value. -/
def valuePieces (mode : Mode) (quoted : Bool) (name : Text) (value : Option Text) :
    Action (List Piece) := do
  if isArguments name then argumentPieces mode (name == ['@']) quoted
  else
    match value with
    | some t => return Piece.ofText mode quoted t
    | none => if ← hasFlag 'u' then unset name false [] else return []

/-- What a parameter stands for. -/
def expandParameter (machine : Machine) (mode : Mode) (name : Text) (use : Use) (quoted : Bool) :
    Action (List Piece) := do
  if let .bad := use then fail "Bad substitution".toList
  let value ← parameterValue? name
  match use with
  | .bad => return []
  | .value => valuePieces mode quoted name value
  | .length =>
    if value.isNone && (← hasFlag 'u') && !isArguments name then unset name false []
    return Piece.ofText mode quoted (Octets.ofNat (value.getD []).length)
  | .absence kind alsoEmpty word =>
    let absent := match value with
      | none => true
      | some t => alsoEmpty && t.isEmpty
    match absent, kind with
    | true, .default => machine.expand { mode with replaces := true } word
    | true, .alternative => return []
    | true, .assign =>
      if !isName name then fail (name ++ ": bad variable name".toList)
      let text ← machine.plain word
      assign name text
      return Piece.ofText mode quoted text
    | true, .complain => unset name alsoEmpty (← machine.plain word)
    | false, .alternative => machine.expand { mode with replaces := true } word
    | false, _ => valuePieces mode quoted name value
  | .trim fromEnd longest word =>
    if value.isNone && (← hasFlag 'u') && !isArguments name then unset name false []
    let pattern := Piece.pattern (← machine.expand ⟨false, false⟩ word)
    let trim := if fromEnd then pattern.trimEnd else pattern.trimStart
    return Piece.ofText mode quoted (trim longest (value.getD []))

end MemberOrder.Shell
