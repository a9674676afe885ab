import MemberOrder.Files.System
import MemberOrder.Rearrange

/-!
Documents: Java files that are read, rearranged, written back and formatted. Every operation gives
its result, the files after it, and what it logged. What a formatter is, and how the system runs
one, is left open.
-/

set_option autoImplicit false

namespace MemberOrder

/-- Why a file could not be read. -/
inductive ReadCause
  | file (e : FileError)
  | decoding (e : Utf8.DecodeError)
deriving DecidableEq

def ReadCause.message (path : RawText) : ReadCause → String
  | .file e => e.message path
  | .decoding e => e.message

/-- Why an operation on a document failed. -/
inductive DocumentError
  | notJava
  | unreadable (path : RawText) (cause : ReadCause)
  | unwritable (path : RawText) (cause : FileError)
  /-- The system has no bytes for the path. -/
  | unencodable (e : EncodeError)
  | nullInPath
  /-- What a formatter wrote cannot be decoded. -/
  | undecodable (e : Utf8.DecodeError)
  | fault (f : Fault)
deriving DecidableEq

def DocumentError.message : DocumentError → RawText
  | .notJava => .ofString "This command only works with Java files"
  | .unreadable path cause =>
    .ofString "Could not read " ++ path ++ .ofString (": " ++ cause.message path)
  | .unwritable path cause =>
    .ofString "Could not write " ++ path ++ .ofString (": " ++ cause.message path)
  | .unencodable e => .ofString e.message
  | .nullInPath => .ofString "embedded null byte"
  | .undecodable e => .ofString e.message
  | .fault f => .ofString f.message

/-- Is the error one that users are told of? The others end the program. -/
def DocumentError.isReported : DocumentError → Bool
  | .notJava => true
  | .unreadable _ _ => true
  | .unwritable _ _ => true
  | .unencodable _ => false
  | .nullInPath => false
  | .undecodable _ => false
  | .fault _ => false

/-- What became of a document. -/
structure Outcome where
  path : RawText
  changed : Bool
  message : String
  source : Text
  written : Bool
  formatted : Bool
deriving DecidableEq

/-- The result of an operation, with the files after it and what it logged. -/
structure Report (α : Type) where
  result : Except DocumentError α
  files : FileSystem
  log : List Log.Entry

/-- What became of the launch of a program: it was refused, or the program ended with a status,
below zero for a signal, and with what it wrote. -/
inductive Launch
  | refused (e : FileError)
  | ended (status : Int) (output errors : List UInt8)

/-- A formatter: the words of its command line, to which the path of a file is added, and how the
system launches a command line on the files. -/
structure Formatter where
  command : List Text
  launch : FileSystem → List (List UInt8) → Launch × FileSystem

namespace Document

def note (message : String) : Log.Entry := ⟨.debug, .documents, message⟩

def warning (message : String) : Log.Entry := ⟨.warning, .documents, message⟩

/-- The bytes by which a path, or another word, is handed to the system. -/
def address (path : RawText) : Except DocumentError (List UInt8) := do
  let bytes ← (Path.encode path).mapError .unencodable
  if bytes.contains 0 then .error .nullInPath else .ok bytes

def read (files : FileSystem) (path : RawText) : Except DocumentError Text := do
  if !Path.isJava path then .error .notJava
  let place ← address path
  let bytes ← (files.read place).mapError fun e => .unreadable path (.file e)
  (Utf8.decode bytes).mapError fun e => .unreadable path (.decoding e)

def write (files : FileSystem) (path : RawText) (source : Text) :
    Except DocumentError FileSystem := do
  if !Path.isJava path then .error .notJava
  let place ← address path
  (files.write place (Utf8.encode source)).mapError (.unwritable path)

/-- Shows a command line as a list of quoted words. -/
def shownCommand (words : List RawText) : String :=
  "[" ++ ", ".intercalate (words.map fun word => String.ofList word.quoted) ++ "]"

/-- Runs a formatter on a file. An empty command formats nothing. What the formatter writes must be
UTF-8, also where it is not shown. -/
def format (files : FileSystem) (path : RawText) (formatter : Formatter) : Report Bool :=
  match formatter.command with
  | [] => ⟨.ok false, files, []⟩
  | name :: arguments =>
    let words := (name :: arguments).map RawText.ofText ++ [path]
    let start := note ("Formatting with: " ++ shownCommand words)
    match words.mapM address with
    | .error e => ⟨.error e, files, [start]⟩
    | .ok addresses =>
      let failed := "Failed to format " ++ String.ofList path.escaped
      match formatter.launch files addresses with
      | (.refused e, files) =>
        ⟨.ok false, files, [start, warning (failed ++ ": " ++ e.message (.ofText name))]⟩
      | (.ended status output errors, files) =>
        match Utf8.decode output, Utf8.decode errors with
        | .error e, _ => ⟨.error (.undecodable e), files, [start]⟩
        | _, .error e => ⟨.error (.undecodable e), files, [start]⟩
        | .ok _, .ok errors =>
          if status = 0 then ⟨.ok true, files, [start]⟩
          else
            ⟨.ok false, files,
              [start, warning (failed ++ " (exit status " ++ toString status ++ "): "
                ++ String.ofList (Text.trim (Text.withLineFeeds errors)))]⟩

/-- What is to be done with a rearranged document: whether it is written, and what formats it
then, if anything does. -/
structure Handling where
  write : Bool
  formatter : Option Formatter

/-- The outcome for a document whose new source is known. -/
def conclude (files : FileSystem) (path : RawText) (old new : Text)
    (changedMessage unchangedMessage : String) (handling : Handling) : Report Outcome :=
  if new = old then ⟨.ok ⟨path, false, unchangedMessage, old, false, false⟩, files, []⟩
  else if !handling.write then ⟨.ok ⟨path, true, changedMessage, new, false, false⟩, files, []⟩
  else
    match write files path new with
    | .error e => ⟨.error e, files, []⟩
    | .ok files =>
      let formatting : Report Bool := match handling.formatter with
        | none => ⟨.ok false, files, []⟩
        | some formatter => format files path formatter
      { formatting with
        result := formatting.result.map fun formatted =>
          ⟨path, true, changedMessage, new, true, formatted⟩ }

def sortedMessage : String := "Methods sorted successfully"

def alreadySortedMessage : String := "Methods are already sorted"

def shuffledMessage : String := "Methods shuffled randomly"

def nothingToShuffleMessage : String := "No methods to shuffle"

/-- Sorts the methods of a file. -/
def sort (files : FileSystem) (options : Options) (handling : Handling) (path : RawText) :
    Report Outcome :=
  match read files path with
  | .error e => ⟨.error e, files, []⟩
  | .ok source =>
    let log := Rearrange.log source
    match Rearrange.sort options source with
    | .error f => ⟨.error (.fault f), files, log⟩
    | .ok new =>
      let report :=
        conclude files path source new sortedMessage alreadySortedMessage handling
      { report with log := log ++ report.log }

/-- Shuffles the methods of a file, and gives what is left of the index source. -/
def shuffle (files : FileSystem) (indexes : IndexSource) (handling : Handling) (path : RawText) :
    Report Outcome × IndexSource :=
  match read files path with
  | .error e => (⟨.error e, files, []⟩, indexes)
  | .ok source =>
    let log := Rearrange.log source
    match Rearrange.shuffle indexes source with
    | .error f => (⟨.error (.fault f), files, log⟩, indexes)
    | .ok (new, indexes) =>
      let report :=
        conclude files path source new shuffledMessage nothingToShuffleMessage handling
      ({ report with log := log ++ report.log }, indexes)

end Document

end MemberOrder
