import MemberOrder.CommandLine.Request
import MemberOrder.CommandLine.ShellWords
import MemberOrder.Document.Basic
import MemberOrder.Settings.Basic

/-!
Running a request on a file system: what is printed, what goes to the error stream, the files
afterwards, and how the run ends. Paths are handled in order up to the first that fails.
-/

set_option autoImplicit false

namespace MemberOrder.CommandLine

/-- Why a run stops before its end. -/
inductive RunError
  | settings (e : SettingsError)
  | document (e : DocumentError)
  | formatterWords (e : ShellWords.SplitError)
  | noClass
  /-- A switch was given without the operand that it needs. -/
  | levelMissing
  | ruleMissing
  | seedMissing
  | formatterMissing

namespace RunError

def message (limit : DigitLimit) : RunError → RawText
  | .settings e => e.message limit
  | .document e => e.message
  | .formatterWords e => .ofString e.message
  | .noClass => .ofString "No class with a complete body was found."
  | .levelMissing => .ofString "attribute name must be string, not 'list'"
  | .ruleMissing => .ofString "unhashable type: 'list'"
  | .seedMissing =>
    .ofString "The only supported seed types are: None,\nint, float, str, bytes, and bytearray."
  | .formatterMissing => .ofString "'list' object has no attribute 'read'"

/-- Is the error one that users are told of? The others end the program. -/
def isReported (limit : DigitLimit) : RunError → Bool
  | .settings e => e.isReported limit
  | .document e => e.isReported
  | .noClass => true
  | _ => false

end RunError

/-- What a run has done so far. -/
structure Progress where
  files : FileSystem
  printed : Text
  log : List Log.Entry
  served : List Service

namespace Progress

def start (files : FileSystem) : Progress := ⟨files, [], [], []⟩

def print (progress : Progress) (t : Text) : Progress :=
  { progress with printed := progress.printed ++ t }

end Progress

/-- What is printed for a document. -/
def reportOf (printOnly : Bool) (outcome : Outcome) : Text :=
  if printOnly then outcome.source
  else outcome.path.escaped ++ ": ".toList ++ outcome.message.toList ++ ['\n']

/-- Takes over what an operation on a document did, and gives its outcome. -/
def Progress.follow (progress : Progress) (printOnly : Bool) (report : Report Outcome) :
    Progress × Option RunError :=
  let progress := { progress with files := report.files, log := progress.log ++ report.log }
  match report.result with
  | .ok outcome => (progress.print (reportOf printOnly outcome), none)
  | .error e => (progress, some (.document e))

def sortPaths (options : Options) (handling : Document.Handling) :
    Progress → List Text → Progress × Option RunError
  | progress, [] => (progress, none)
  | progress, path :: rest =>
    match progress.follow (!handling.write)
      (Document.sort progress.files options handling (.ofText path)) with
    | (progress, none) => sortPaths options handling progress rest
    | stopped => stopped

/-- One source of indexes serves all paths. -/
def shufflePaths (handling : Document.Handling) :
    IndexSource → Progress → List Text → Progress × Option RunError
  | _, progress, [] => (progress, none)
  | indexes, progress, path :: rest =>
    let (report, indexes) := Document.shuffle progress.files indexes handling (.ofText path)
    match progress.follow (!handling.write) report with
    | (progress, none) => shufflePaths handling indexes progress rest
    | stopped => stopped

/-- The line of a listing for a method. -/
def listingLine (m : Method) : Text :=
  Text.padLeft 3 (toString m.position).toList ++ "  ".toList
    ++ Text.padRight 9 m.access.name.toList ++ " ".toList
    ++ Text.padRight 6 (if m.isStatic then "static".toList else []) ++ " ".toList
    ++ m.signature ++ ['\n']

def listing (layout : Layout) : Text :=
  layout.name ++ '\n' :: layout.methods.flatMap listingLine

/-- What a run is set in: the environment that it takes options from, where indexes come from
without a seed, how many digits the runtime reads and writes out, and how the system launches a
formatter. -/
structure Setting where
  environment : List (RawText × Value)
  unseeded : IndexSource
  limit : DigitLimit
  launch : FileSystem → List (List UInt8) → Launch × FileSystem

namespace Setting

variable (setting : Setting)

def options : Except RunError Options :=
  (Options.default.mergeEnvironment setting.environment).mapError .settings

/-- How the documents of a job are handled. -/
def handling (job : Job) : Except RunError Document.Handling :=
  match job.formatter with
  | none => .error .formatterMissing
  | some formatter =>
    ((ShellWords.split formatter).mapError .formatterWords).map fun command =>
      ⟨!job.printOnly, some ⟨command, setting.launch⟩⟩

/-- The rules that were given, none of which may be missing. -/
def rulesOf (given : List (Given Rule)) : Except RunError (List Rule) :=
  match given.mapM id with
  | some rules => .ok rules
  | none => .error .ruleMissing

/-- Where a shuffle takes its indexes from. -/
def indexes : Option (Given Int) → Except RunError IndexSource
  | none => .ok setting.unseeded
  | some none => .error .seedMissing
  | some (some seed) => .ok (.ofSeed seed)

/-- The options of the environment, with the strategy and rules of the command line; a rule that is
both enabled and disabled is off. -/
def sortOptions (strategy : Option Strategy) (enabled disabled : List (Given Rule)) :
    Except RunError Options := do
  let enabled ← rulesOf enabled
  let disabled ← rulesOf disabled
  let options ← setting.options
  let options := match strategy with
    | some s => { options with strategy := s }
    | none => options
  .ok (disabled.foldl (·.switch · false) (enabled.foldl (·.switch · true) options))

/-- What sorting needs to know, besides the paths. -/
def sortPlan (job : Job) (strategy : Option Strategy) (enabled disabled : List (Given Rule)) :
    Except RunError (Options × Document.Handling) := do
  let options ← setting.sortOptions strategy enabled disabled
  .ok (options, ← setting.handling job)

/-- What shuffling needs to know, besides the paths. -/
def shufflePlan (job : Job) (seed : Option (Given Int)) :
    Except RunError (IndexSource × Document.Handling) := do
  let _ ← setting.options
  let indexes ← setting.indexes seed
  .ok (indexes, ← setting.handling job)

def perform (files : FileSystem) : Command → Progress × Option RunError
  | .sort job strategy enabled disabled =>
    let progress := Progress.start files
    match setting.sortPlan job strategy enabled disabled with
    | .error e => (progress, some e)
    | .ok (options, handling) => sortPaths options handling progress job.paths
  | .shuffle job seed =>
    let progress := Progress.start files
    match setting.shufflePlan job seed with
    | .error e => (progress, some e)
    | .ok (indexes, handling) => shufflePaths handling indexes progress job.paths
  | .list path =>
    let progress := Progress.start files
    match Document.read files (.ofText path) with
    | .error e => (progress, some (.document e))
    | .ok source =>
      let reading := Reading.ofText source
      let progress := { progress with log := reading.log }
      match reading.layout? with
      | some layout => (progress.print (listing layout), none)
      | none => (progress, some .noClass)
  | .serve service => ({ Progress.start files with served := [service] }, none)

end Setting

/-- How a run ends: with a status, with an error in its command line, or with an error that nobody
handles. -/
inductive Ending
  | exit (status : Nat)
  | usage (program : String) (e : UsageError)
  | failed (e : RunError)

/-- All that can be seen of a run. -/
structure Transcript where
  ending : Ending
  printed : Text
  errors : Text
  served : List Service
  files : FileSystem

def usageStatus : Nat := 2

def failureStatus : Nat := 1

/-- The exit status of a run. -/
def Ending.status : Ending → Nat
  | .exit status => status
  | .usage _ _ => usageStatus
  | .failed _ => failureStatus

/-- A line of the error stream. -/
def errorLine (line : Text) : Text := line ++ ['\n']

/-- Runs the program on its arguments. -/
def run (setting : Setting) (files : FileSystem) (arguments : List Text) : Transcript :=
  match Request.ofArguments setting.limit arguments with
  | .error .help => ⟨.exit 0, [], [], [], files⟩
  | .error (.usage program e) =>
    ⟨.usage program e, [], errorLine (program ++ ": error: " ++ e.message).toList, [], files⟩
  | .ok ⟨none, _⟩ => ⟨.failed .levelMissing, [], [], [], files⟩
  | .ok ⟨some threshold, command⟩ =>
    let (progress, stopped) := setting.perform files command
    let logged := (Log.linesFrom threshold progress.log).flatMap (errorLine ·.toList)
    let finish (ending : Ending) (errors : Text) : Transcript :=
      ⟨ending, progress.printed, logged ++ errors, progress.served, progress.files⟩
    match stopped with
    | none => finish (.exit 0) []
    | some e =>
      if e.isReported setting.limit then
        finish (.exit failureStatus) (errorLine (e.message setting.limit).escaped)
      else finish (.failed e) []

end MemberOrder.CommandLine
