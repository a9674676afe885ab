import MemberOrder.CommandLine.Grammar
import MemberOrder.Text.Numeral
import MemberOrder.Text.Quoted

/-!
Reading a command line by a grammar. Words that start with a dash are flags, written in full or
shortened as far as they stay clear, with their operand behind an equals sign or as the next word;
a negative number and a word with a blank are no flags. Behind two dashes nothing is a flag. A flag
that the grammar does not know is left over, and so are words that nothing expects.
-/

set_option autoImplicit false

namespace MemberOrder.CommandLine

inductive UsageError
  | ambiguous (flag : Text) (candidates : List Text)
  | operandMissing (s : Switch)
  | operandIgnored (s : Switch) (operand : Text)
  | invalidChoice (title : String) (word : Text) (choices : List String)
  | invalidInteger (s : Switch) (word : Text)
  | required (title : String)
  | unrecognized (words : List Text)
deriving DecidableEq

def UsageError.message : UsageError → String
  | .ambiguous flag candidates =>
    "ambiguous option: " ++ String.ofList flag ++ " could match "
      ++ ", ".intercalate (candidates.map String.ofList)
  | .operandMissing s => "argument " ++ s.title ++ ": expected one argument"
  | .operandIgnored s operand =>
    "argument " ++ s.title ++ ": ignored explicit argument " ++ String.ofList (Text.quoted operand)
  | .invalidChoice title word choices =>
    "argument " ++ title ++ ": invalid choice: " ++ String.ofList (Text.quoted word)
      ++ " (choose from "
      ++ ", ".intercalate (choices.map fun choice => String.ofList (Text.quoted choice.toList))
      ++ ")"
  | .invalidInteger s word =>
    "argument " ++ s.title ++ ": invalid int value: " ++ String.ofList (Text.quoted word)
  | .required title => "the following arguments are required: " ++ title
  | .unrecognized words =>
    "unrecognized arguments: " ++ " ".intercalate (words.map String.ofList)

/-- How reading a command line ends before it is complete: help is asked for, or the program named
finds an error. -/
inductive Stop
  | help
  | usage (program : String) (e : UsageError)
deriving DecidableEq

/-- What a word is taken for. -/
inductive Role
  | argument
  | divider
  /-- A flag, with an operand that is part of the word. -/
  | flag (s : Switch) (operand : Option Text)
  /-- The short flag for help, with letters for more such flags behind it. -/
  | letters (more : Text)
  | unknownFlag
deriving DecidableEq

/-- The word that divides flags from what are none. -/
def divider : Text := "--".toList

structure Word where
  text : Text
  role : Role
deriving DecidableEq

namespace Grammar

variable (grammar : Grammar)

/-- The part of a word before the first equals sign, and the part after it if there is one. -/
def splitOperand (word : Text) : Text × Option Text :=
  let flag := word.takeWhile (· != '=')
  if word.contains '=' then (flag, some (word.drop (flag.length + 1))) else (flag, none)

/-- The one flag with a single dash. -/
def shortHelp : Text := "-h".toList

/-- The flags that start with a text. -/
def completions (start : Text) : List (Text × Switch) :=
  grammar.flags.filter fun (flag, _) => start.isPrefixOf flag

/-- What a word before any divider is taken for. -/
def roleOf (word : Text) : Except UsageError Role :=
  let (start, operand) := splitOperand word
  if word.head? ≠ some '-' then .ok .argument
  else if let some s := grammar.flags.lookup word then .ok (.flag s none)
  else if word.length = 1 then .ok .argument
  else if start = shortHelp then .ok (.letters (operand.getD []))
  else if let some s := grammar.flags.lookup start then .ok (.flag s operand)
  else if shortHelp.isPrefixOf word then .ok (.letters (word.drop shortHelp.length))
  else
    match (if divider.isPrefixOf word then grammar.completions start else []) with
    | [(_, s)] => .ok (.flag s operand)
    | [] =>
      if Text.isNegativeNumeral word || word.contains ' ' then .ok .argument else .ok .unknownFlag
    | many => .error (.ambiguous word (many.map (·.1)))

/-- The roles of all words; the first two dashes divide. -/
def classify : List Text → Except UsageError (List Word)
  | [] => .ok []
  | word :: rest =>
    if word = divider then
      .ok (⟨word, .divider⟩ :: rest.map fun other => ⟨other, .argument⟩)
    else do
      let role ← grammar.roleOf word
      let others ← classify rest
      .ok (⟨word, role⟩ :: others)

end Grammar

namespace Word

def isDivider (w : Word) : Bool := w.role == .divider

def isArgument (w : Word) : Bool := w.role == .argument

def isFlag (w : Word) : Bool := !(w.isDivider || w.isArgument)

end Word

/-- How many of the words what is expected takes; none if it cannot start with them. -/
def Expected.count (expected : Expected) (words : List Word) : Nat :=
  let dividers := (words.takeWhile Word.isDivider).length
  match words.drop dividers with
  | [] => 0
  | w :: rest =>
    if w.isArgument then
      match expected with
      | .mode => words.length
      | .paths => dividers + 1 + (rest.takeWhile (!·.isFlag)).length
      | .path => dividers + 1 + (rest.takeWhile Word.isDivider).length
      | .nothing => 0
    else 0

/-- What has been read: switches with their operands, the words that were expected, and the words
left over, all in order. A switch may have its operand missing. -/
structure Arguments where
  switches : List (Switch × Option Text)
  words : Option (List Text)
  left : List Text

namespace Arguments

def empty : Arguments := ⟨[], none, []⟩

def leave (read : Arguments) (words : List Text) : Arguments :=
  { read with left := read.left ++ words }

/-- Sets a switch, with or without an operand. -/
def put (read : Arguments) (s : Switch) (operand : Option Text) : Arguments :=
  { read with switches := read.switches ++ [(s, operand)] }

/-- Sets a switch to an operand, if it is one that the switch takes. Two dashes divide even as an
operand, so that none is left. -/
def set (limit : DigitLimit) (read : Arguments) (s : Switch) (operand : Text) :
    Except UsageError Arguments :=
  if operand = divider then .ok (read.put s none)
  else
    match s.operand with
    | .nothing => .ok (read.put s none)
    | .word => .ok (read.put s operand)
    | .choice words =>
      if words.any (·.toList == operand) then .ok (read.put s operand)
      else .error (.invalidChoice s.title operand words)
    | .integer =>
      if (Text.integer? limit operand).isSome then .ok (read.put s operand)
      else .error (.invalidInteger s operand)

/-- What a switch was given last, if it was given; its operand may be missing. -/
def operand? (read : Arguments) (s : Switch) : Option (Option Text) :=
  ((read.switches.filter (·.1 == s)).getLast?).map (·.2)

/-- All that a switch was given. -/
def operands (read : Arguments) (s : Switch) : List (Option Text) :=
  (read.switches.filter (·.1 == s)).map (·.2)

def has (read : Arguments) (s : Switch) : Bool := read.switches.any (·.1 == s)

/-- Takes the words that were expected; the first divider among them is dropped, except before a
mode. -/
def take (read : Arguments) (expected : Expected) (words : List Word) : Arguments :=
  let texts := words.map (·.text)
  { read with words := some (if expected = .mode then texts else texts.erase divider) }

end Arguments

/-- Do the letters behind a short flag for help ask for help too? What no flag is in them would be
an operand, and help takes none. -/
def lettersAskHelp (letters : Text) : Except UsageError Unit :=
  let operand := letters.dropWhile (· == 'h')
  if operand.isEmpty && !letters.isEmpty then .ok ()
  else .error (.operandIgnored .help operand)

/-- What a flag makes of the words behind it: the arguments with it, and the words it leaves. Help
ends the reading. -/
def readFlag (limit : DigitLimit) (read : Arguments) (s : Switch) (operand : Option Text)
    (rest : List Word) : Except UsageError (Option (Arguments × List Word)) :=
  match s.takesOperand, operand, rest with
  | false, some operand, _ => .error (.operandIgnored s operand)
  | false, none, rest =>
    if s = .help then .ok none else .ok (some (read.put s none, rest))
  | true, some operand, rest => (read.set limit s operand).map fun read => some (read, rest)
  | true, none, ⟨word, .argument⟩ :: rest =>
    (read.set limit s word).map fun read => some (read, rest)
  | true, none, _ => .error (.operandMissing s)

theorem length_readFlag_le {limit : DigitLimit} {read read' : Arguments} {s : Switch}
    {operand : Option Text} {rest rest' : List Word}
    (h : readFlag limit read s operand rest = .ok (some (read', rest'))) :
    rest'.length ≤ rest.length := by
  have eq_of_map {e : Except UsageError Arguments} {others : List Word}
      (he : e.map (fun read => some (read, others)) = .ok (some (read', rest'))) :
      rest' = others := by
    cases e with
    | error e => simp [Except.map] at he
    | ok r =>
      simp only [Except.map, Except.ok.injEq, Option.some.injEq, Prod.mk.injEq] at he
      exact he.2.symm
  unfold readFlag at h
  split at h
  · cases h
  · split at h
    · cases h
    · cases h
      exact Nat.le_refl _
  · exact Nat.le_of_eq (congrArg List.length (eq_of_map h))
  · rw [eq_of_map h]
    simp
  · cases h

/-- Reads words by what they are taken for. Words that are expected are taken at the first chance,
as many as fit. -/
def readWords (limit : DigitLimit) (expected : Expected) (read : Arguments) (words : List Word) :
    Except UsageError (Option Arguments) :=
  match words with
  | [] => .ok (some read)
  | ⟨text, .unknownFlag⟩ :: rest => readWords limit expected (read.leave [text]) rest
  | ⟨_, .letters more⟩ :: _ => (lettersAskHelp more).map fun _ => none
  | ⟨_, .flag s operand⟩ :: rest =>
    match _h : readFlag limit read s operand rest with
    | .error e => .error e
    | .ok none => .ok none
    | .ok (some (read, rest)) => readWords limit expected read rest
  | w :: rest =>
    let count := if read.words.isNone then expected.count (w :: rest) else 0
    if 0 < count then
      readWords limit expected (read.take expected ((w :: rest).take count))
        ((w :: rest).drop count)
    else
      readWords limit expected (read.leave (w.text :: (rest.takeWhile (!·.isFlag)).map (·.text)))
        (rest.dropWhile (!·.isFlag))
termination_by words.length
decreasing_by
  · simp
  · have := length_readFlag_le _h
    simp only [List.length_cons]
    omega
  · simp only [List.length_drop, List.length_cons]
    omega
  · have := (List.dropWhile_sublist (l := rest) (fun w : Word => !w.isFlag)).length_le
    simp only [List.length_cons]
    omega

/-- Reads a command line by a grammar; what it expects must be there. -/
def Grammar.read (limit : DigitLimit) (grammar : Grammar) (arguments : List Text) :
    Except Stop Arguments :=
  let usage (e : UsageError) : Stop := .usage grammar.program e
  match (grammar.classify arguments).bind (readWords limit grammar.expected .empty) with
  | .error e => .error (usage e)
  | .ok none => .error .help
  | .ok (some read) =>
    if grammar.expected ≠ .nothing && read.words.isNone then
      .error (usage (.required grammar.expected.title))
    else .ok read

end MemberOrder.CommandLine
