import MemberOrder.CommandLine.Reader

/-!
Requests: what a command line asks for, once it is found right.
-/

set_option autoImplicit false

namespace MemberOrder.CommandLine

/-- What a switch sets; its operand may be missing. -/
abbrev Given (α : Type) := Option α

/-- Files to rearrange: their paths, whether the results are printed and not written, and the
command line of the formatter. -/
structure Job where
  paths : List Text
  printOnly : Bool
  formatter : Given Text

structure Service where
  allowWrites : Bool
  transport : Given Text

inductive Command
  | sort (job : Job) (strategy : Option Strategy) (enabled disabled : List (Given Rule))
  | shuffle (job : Job) (seed : Option (Given Int))
  | list (path : Text)
  | serve (service : Service)

structure Request where
  threshold : Given Log.Level
  command : Command

/-- The paths of the files that a command works on. -/
def Command.paths : Command → List Text
  | .sort job _ _ _ => job.paths
  | .shuffle job _ => job.paths
  | .list path => [path]
  | .serve _ => []

/-- The arguments with a default mode in front, unless they name a mode themselves. -/
def withDefaultMode (default : Option Text) (arguments : List Text) : List Text :=
  match default with
  | none => arguments
  | some mode =>
    if (arguments.head?.bind Mode.ofName?).isSome then arguments else mode :: arguments

namespace Arguments

variable (read : Arguments)

def threshold : Given Log.Level :=
  match read.operand? .logLevel with
  | none => some .warning
  | some given => given.bind fun name => Log.Level.ofName? (String.ofList name)

def job : Job :=
  ⟨read.words.getD [], read.has .print, (read.operand? .formatterCommand).getD (some [])⟩

def rules (s : Switch) : List (Given Rule) :=
  (read.operands s).map fun given => given.bind fun name => Rule.ofName? (String.ofList name)

/-- A strategy whose name is missing changes nothing. -/
def strategy : Option Strategy :=
  (read.operand? .sortingStrategy).join.bind fun name => Strategy.ofName? (String.ofList name)

def command (limit : DigitLimit) : Mode → Command
  | .sort => .sort read.job read.strategy (read.rules .enable) (read.rules .disable)
  | .shuffle => .shuffle read.job ((read.operand? .seed).map (·.bind (Text.integer? limit)))
  | .list => .list ((read.words.getD []).headD [])
  | .serve =>
    .serve ⟨read.has .allowFileWrites, (read.operand? .transport).getD (some "stdio".toList)⟩

end Arguments

/-- The request that a command line makes. Words that no part of it takes are an error of the
program as a whole. -/
def Request.ofArguments (limit : DigitLimit) (arguments : List Text) : Except Stop Request := do
  let whole ← Grammar.main.read limit arguments
  let words := whole.words.getD []
  let name := words.headD []
  match Mode.ofName? name with
  | none =>
    .error (.usage Grammar.main.program
      (.invalidChoice Expected.mode.title name (Mode.all.map Mode.name)))
  | some mode =>
    let read ← (Grammar.ofMode mode).read limit (words.drop 1)
    let left := whole.left ++ read.left
    if left.isEmpty then .ok ⟨read.threshold, read.command limit mode⟩
    else .error (.usage Grammar.main.program (.unrecognized left))

end MemberOrder.CommandLine
