import MemberOrder.Settings.Value

/-!
Calls of tools: which tools there are, which arguments each takes by name, and the call that named
arguments make.
-/

set_option autoImplicit false

namespace MemberOrder

inductive Tool
  | parseClass
  | shuffleFile
  | shuffleMethods
  | sortFile
  | sortMethods
deriving DecidableEq

namespace Tool

/-- All tools, in the order of their names. -/
def all : List Tool := [.parseClass, .shuffleFile, .shuffleMethods, .sortFile, .sortMethods]

def name : Tool → String
  | .parseClass => "java_parse_class"
  | .shuffleFile => "java_shuffle_file"
  | .shuffleMethods => "java_shuffle_methods"
  | .sortFile => "java_sort_file"
  | .sortMethods => "java_sort_methods"

def ofName? (name : RawText) : Option Tool := all.find? fun tool => .ofString tool.name == name

/-- The argument that must be given. -/
def required : Tool → String
  | .parseClass => "source"
  | .shuffleFile => "path"
  | .shuffleMethods => "source"
  | .sortFile => "path"
  | .sortMethods => "source"

/-- The argument that may be left out. -/
def optional? : Tool → Option String
  | .parseClass => none
  | .shuffleFile => some "seed"
  | .shuffleMethods => some "seed"
  | .sortFile => some "options"
  | .sortMethods => some "options"

def takes (tool : Tool) (argument : RawText) : Bool :=
  .ofString tool.required == argument || tool.optional?.any (.ofString · == argument)

end Tool

/-- A call of a tool with its arguments, which may be of any kind; one left out is null. -/
inductive ToolCall
  | parseClass (source : Value)
  | sortMethods (source options : Value)
  | shuffleMethods (source seed : Value)
  | sortFile (path options : Value)
  | shuffleFile (path seed : Value)

/-- Why named arguments make no call. -/
inductive CallError
  | unknownTool (name : RawText)
  | unexpected (tool : Tool) (argument : RawText)
  | missing (tool : Tool)
deriving DecidableEq

def CallError.message : CallError → RawText
  | .unknownTool name => .ofText name.quoted
  | .unexpected tool argument =>
    .ofString ("register_tools.<locals>." ++ tool.name ++ "() got an unexpected keyword argument '")
      ++ argument ++ .ofString "'"
  | .missing tool =>
    .ofString ("register_tools.<locals>." ++ tool.name
      ++ "() missing 1 required positional argument: '" ++ tool.required ++ "'")

namespace ToolCall

/-- The call of a tool with the argument that it requires and the one that it does not. -/
def of (tool : Tool) (required optional : Value) : ToolCall :=
  match tool with
  | .parseClass => .parseClass required
  | .shuffleFile => .shuffleFile required optional
  | .shuffleMethods => .shuffleMethods required optional
  | .sortFile => .sortFile required optional
  | .sortMethods => .sortMethods required optional

/-- The call that a name and named arguments make. -/
def ofArguments (name : RawText) (arguments : List (RawText × Value)) :
    Except CallError ToolCall :=
  match Tool.ofName? name with
  | none => .error (.unknownTool name)
  | some tool =>
    match arguments.find? (!tool.takes ·.1), arguments.lookup (.ofString tool.required) with
    | some (argument, _), _ => .error (.unexpected tool argument)
    | none, none => .error (.missing tool)
    | none, some required =>
      .ok (.of tool required ((tool.optional?.bind (arguments.lookup <| .ofString ·)).getD .null))

end ToolCall

end MemberOrder
