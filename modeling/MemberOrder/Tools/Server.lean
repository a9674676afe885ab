import MemberOrder.Document.Basic
import MemberOrder.Rearrange.Raw
import MemberOrder.Settings.Basic
import MemberOrder.Tools.Call

/-!
Servers answer calls of tools. Three tools work on source texts and touch no file; the other two
rearrange files and are answered only where writing is allowed. A call whose arguments are wrong is
answered with a message.
-/

set_option autoImplicit false

namespace MemberOrder

/-- What is wrong with the arguments of a call, or with the file it names. -/
inductive ToolError
  | notText (argument : String)
  | blank (argument : String)
  | invalidSeed
  | settings (e : SettingsError)
  | noClass
  | disabled (tool : Tool)
  | document (e : DocumentError)

namespace ToolError

def message (limit : DigitLimit) : ToolError → RawText
  | .notText argument => .ofString (argument ++ " must be a string.")
  | .blank argument => .ofString (argument ++ " cannot be blank.")
  | .invalidSeed => .ofString "seed must be an integer or None."
  | .settings e => e.message limit
  | .noClass => .ofString "No class with a complete body was found."
  | .disabled tool =>
    .ofString (tool.name
      ++ " is disabled. Start methodsorter mcp with --allow-file-writes to enable.")
  | .document e => e.message

/-- Is the error one that the caller is told of? The others end the call without an answer. -/
def isReported (limit : DigitLimit) : ToolError → Bool
  | .settings e => e.isReported limit
  | .document e => e.isReported
  | _ => true

end ToolError

/-- What a successful call answers. -/
inductive ToolAnswer
  | layout (source : RawText) (layout : Layout)
  | source (changed : Bool) (message : String) (source : RawText)
  | file (path : RawText) (changed : Bool) (message : String)

/-- A server: whether it may write files, the environment it takes options from, where indexes
come from when a call has no seed, and how many digits the runtime writes out. -/
structure Server where
  allowWrites : Bool
  environment : List (RawText × Value)
  unseeded : IndexSource
  limit : DigitLimit

namespace Server

def textOf (argument : String) : Value → Except ToolError RawText
  | .text t => .ok t
  | _ => .error (.notText argument)

/-- The path of a call, without white space around it. -/
def pathOf (value : Value) : Except ToolError RawText := do
  let path := (← textOf "path" value).trim
  if path.isEmpty then .error (.blank "path") else .ok path

def seedOf : Value → Except ToolError (Option Int)
  | .null => .ok none
  | .int n => .ok (some n)
  | _ => .error .invalidSeed

variable (server : Server)

def optionsFor (value : Value) : Except ToolError Options :=
  (do (← Options.default.mergeEnvironment server.environment).mergeValue value :
    Except _ _).mapError .settings

def indexesFor (value : Value) : Except ToolError IndexSource :=
  (seedOf value).map fun
    | some seed => .ofSeed seed
    | none => server.unseeded

def sourceAnswer (old new : RawText) (changedMessage unchangedMessage : String) : ToolAnswer :=
  if new = old then .source false unchangedMessage new else .source true changedMessage new

def fileAnswer (outcome : Outcome) : ToolAnswer :=
  .file outcome.path outcome.changed outcome.message

/-- Documents are written and not formatted. -/
def handling : Document.Handling := ⟨true, none⟩

def parseClass (source : Value) : Except ToolError ToolAnswer := do
  let text ← textOf "source" source
  match (Reading.ofText text.shadow).layout? with
  | some layout => .ok (.layout text layout)
  | none => .error .noClass

def sortMethods (source options : Value) : Except ToolError ToolAnswer := do
  let text ← textOf "source" source
  let options ← server.optionsFor options
  match Rearrange.sortRaw options text with
  | .ok new => .ok (sourceAnswer text new Document.sortedMessage Document.alreadySortedMessage)
  | .error f => .error (.document (.fault f))

/-- No option matters to a shuffle, but those of the environment must be valid. -/
def shuffleMethods (source seed : Value) : Except ToolError ToolAnswer := do
  let text ← textOf "source" source
  let indexes ← server.indexesFor seed
  let _ ← server.optionsFor .null
  match Rearrange.shuffleRaw indexes text with
  | .ok new =>
    .ok (sourceAnswer text new Document.shuffledMessage Document.nothingToShuffleMessage)
  | .error f => .error (.document (.fault f))

def sortFile (files : FileSystem) (path options : Value) : Except ToolError (Report Outcome) :=
  if !server.allowWrites then .error (.disabled .sortFile)
  else do
    let path ← pathOf path
    let options ← server.optionsFor options
    .ok (Document.sort files options handling path)

def shuffleFile (files : FileSystem) (path seed : Value) : Except ToolError (Report Outcome) :=
  if !server.allowWrites then .error (.disabled .shuffleFile)
  else do
    let path ← pathOf path
    let indexes ← server.indexesFor seed
    let _ ← server.optionsFor .null
    .ok (Document.shuffle files indexes handling path).1

/-- The answer of a tool that works on a file, and the files after it. -/
def ofReport (files : FileSystem) :
    Except ToolError (Report Outcome) → Except ToolError ToolAnswer × FileSystem
  | .error e => (.error e, files)
  | .ok report => ((report.result.map fileAnswer).mapError .document, report.files)

/-- Answers a call, and gives the files after it. -/
def answer (files : FileSystem) : ToolCall → Except ToolError ToolAnswer × FileSystem
  | .parseClass source => (parseClass source, files)
  | .sortMethods source options => (server.sortMethods source options, files)
  | .shuffleMethods source seed => (server.shuffleMethods source seed, files)
  | .sortFile path options => ofReport files (server.sortFile files path options)
  | .shuffleFile path seed => ofReport files (server.shuffleFile files path seed)

/-- Answers calls one after the other. -/
def answerAll (files : FileSystem) : List ToolCall → List (Except ToolError ToolAnswer) × FileSystem
  | [] => ([], files)
  | call :: rest =>
    let (result, files) := server.answer files call
    let (results, files) := answerAll files rest
    (result :: results, files)

def name : String := "MethodSorterMCP"

/-- What a server tells its clients about its tools. -/
def instructions (allowWrites : Bool) : String :=
  " ".intercalate
    ["Reorders the methods of the first class in a Java source.",
     "java_parse_class lists the methods the sorter would move.",
     "java_sort_methods and java_shuffle_methods take source text and "
       ++ "return the reordered source without touching any file.",
     if allowWrites then "java_sort_file and java_shuffle_file rewrite .java files in place."
     else "java_sort_file and java_shuffle_file are disabled on this server."]

/-- Whether a server may write files must be said by a truth value. -/
def permission? : Value → Option Bool
  | .bool b => some b
  | _ => none

def permissionMessage : String := "allow_file_writes must be a boolean."

end Server

end MemberOrder
