/-!
Log entries: a level, the part of the program that speaks, and a message.
-/

set_option autoImplicit false

namespace MemberOrder.Log

inductive Level
  | debug
  | info
  | warning
  | error
deriving DecidableEq

namespace Level

def all : List Level := [.debug, .info, .warning, .error]

def name : Level → String
  | .debug => "DEBUG"
  | .info => "INFO"
  | .warning => "WARNING"
  | .error => "ERROR"

def ofName? (name : String) : Option Level := all.find? (·.name == name)

def rank : Level → Nat
  | .debug => 10
  | .info => 20
  | .warning => 30
  | .error => 40

end Level

/-- The parts of the program that write log entries. -/
inductive Channel
  | parsing
  | sorting
  | documents
deriving DecidableEq

def Channel.name : Channel → String
  | .parsing => "reahl.methodsorter.java.parsing"
  | .sorting => "reahl.methodsorter.java.sorting"
  | .documents => "reahl.methodsorter.java.documents"

structure Entry where
  level : Level
  channel : Channel
  message : String
deriving DecidableEq

def Entry.line (entry : Entry) : String :=
  entry.level.name ++ ":" ++ entry.channel.name ++ ":" ++ entry.message

/-- The lines of the entries at the threshold or above. -/
def linesFrom (threshold : Level) (entries : List Entry) : List String :=
  (entries.filter fun entry => decide (threshold.rank ≤ entry.level.rank)).map Entry.line

end MemberOrder.Log
