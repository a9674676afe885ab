import MemberOrder.Log
import MemberOrder.Order.Options
import MemberOrder.Text.Basic

/-!
The grammar of the command line: the modes, and for each the switches it takes and the words it
expects beside them.
-/

set_option autoImplicit false

namespace MemberOrder.CommandLine

inductive Mode
  | sort
  | shuffle
  | list
  | serve
deriving DecidableEq

namespace Mode

def all : List Mode := [.sort, .shuffle, .list, .serve]

def name : Mode → String
  | .sort => "sort"
  | .shuffle => "shuffle"
  | .list => "list"
  | .serve => "mcp"

def ofName? (name : Text) : Option Mode := all.find? fun mode => mode.name.toList == name

end Mode

inductive Switch
  | help
  | logLevel
  | print
  | formatterCommand
  | sortingStrategy
  | enable
  | disable
  | seed
  | transport
  | allowFileWrites
deriving DecidableEq

namespace Switch

def flags : Switch → List String
  | .help => ["-h", "--help"]
  | .logLevel => ["--log-level"]
  | .print => ["--print"]
  | .formatterCommand => ["--formatter-command"]
  | .sortingStrategy => ["--sorting-strategy"]
  | .enable => ["--enable"]
  | .disable => ["--disable"]
  | .seed => ["--seed"]
  | .transport => ["--transport"]
  | .allowFileWrites => ["--allow-file-writes"]

/-- The name of a switch in messages. -/
def title (s : Switch) : String := "/".intercalate s.flags

/-- What a switch takes: nothing, any word, one of some words, or a whole number. -/
inductive Operand
  | nothing
  | word
  | choice (words : List String)
  | integer

def operand : Switch → Operand
  | .help => .nothing
  | .logLevel => .choice (Log.Level.all.map Log.Level.name)
  | .print => .nothing
  | .formatterCommand => .word
  | .sortingStrategy => .choice (Strategy.all.map Strategy.name)
  | .enable => .choice (Rule.all.map Rule.name)
  | .disable => .choice (Rule.all.map Rule.name)
  | .seed => .integer
  | .transport => .choice ["stdio"]
  | .allowFileWrites => .nothing

def takesOperand (s : Switch) : Bool :=
  match s.operand with
  | .nothing => false
  | _ => true

end Switch

/-- The words that a grammar expects beside its switches: a mode with all that follows it, one path
or more, exactly one path, or none. -/
inductive Expected
  | mode
  | paths
  | path
  | nothing
deriving DecidableEq

/-- The name of what is expected in messages. -/
def Expected.title : Expected → String
  | .mode => "mode"
  | .paths => "PATH"
  | .path => "PATH"
  | .nothing => ""

structure Grammar where
  program : String
  switches : List Switch
  expected : Expected

namespace Grammar

def programName : String := "methodsorter"

def main : Grammar := ⟨programName, [.help], .mode⟩

def ofMode (mode : Mode) : Grammar :=
  let program := programName ++ " " ++ mode.name
  match mode with
  | .sort =>
    ⟨program,
      [.help, .logLevel, .print, .formatterCommand, .sortingStrategy, .enable, .disable], .paths⟩
  | .shuffle => ⟨program, [.help, .logLevel, .print, .formatterCommand, .seed], .paths⟩
  | .list => ⟨program, [.help, .logLevel], .path⟩
  | .serve => ⟨program, [.help, .logLevel, .transport, .allowFileWrites], .nothing⟩

/-- The flags of a grammar with their switches, in order. -/
def flags (grammar : Grammar) : List (Text × Switch) :=
  grammar.switches.flatMap fun s => s.flags.map fun flag => (flag.toList, s)

end Grammar

end MemberOrder.CommandLine
