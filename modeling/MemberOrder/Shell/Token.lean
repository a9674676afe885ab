import MemberOrder.Shell.Syntax

/-!
The tokens of a script, and the state of its reading.
-/

set_option autoImplicit false

namespace MemberOrder.Shell

/-- What a redirection operator asks for, before its word is read. -/
inductive Operator
  | file (opening : Opening)
  | descriptor
  /-- A text in the script follows, and tabs before its lines may be dropped. -/
  | document (stripped : Bool)
deriving DecidableEq

inductive Token
  | endOfFile
  | newline
  | semicolon
  | background
  | conjunction
  | disjunction
  | pipe
  | leftParenthesis
  | rightParenthesis
  | endOfBranch
  | redirection (descriptor : Nat) (operator : Operator)
  | word (parts : Word) (quoted : Bool)
  | keyword (name : String)

def keywords : List String :=
  ["!", "case", "do", "done", "elif", "else", "esac", "fi", "for", "if", "in", "then", "until",
    "while", "\x7b", "\x7d"]

/-- The keywords that end a list of commands. -/
def closingKeywords : List String :=
  ["do", "done", "elif", "else", "esac", "fi", "then", "\x7d"]

namespace Token

/-- The token as it is shown in messages. -/
def shown : Token → String
  | .endOfFile => "end of file"
  | .newline => "newline"
  | .semicolon => "\";\""
  | .background => "\"&\""
  | .conjunction => "\"&&\""
  | .disjunction => "\"||\""
  | .pipe => "\"|\""
  | .leftParenthesis => "\"(\""
  | .rightParenthesis => "\")\""
  | .endOfBranch => "\";;\""
  | .redirection _ _ => "redirection"
  | .word _ _ => "word"
  | .keyword name => "\"" ++ name ++ "\""

def endsList : Token → Bool
  | .endOfFile => true
  | .rightParenthesis => true
  | .endOfBranch => true
  | .keyword name => closingKeywords.contains name
  | _ => false

/-- A word that is spelled as a keyword, where one may stand. -/
def asKeyword : Token → Token
  | .word parts quoted =>
    match quoted, Word.plain? parts with
    | false, some text =>
      if keywords.contains (String.ofList text) then .keyword (String.ofList text)
      else .word parts quoted
    | _, _ => .word parts quoted
  | token => token

/-- Is the token this keyword? -/
def isKeyword (name : String) : Token → Bool
  | .keyword other => other == name
  | _ => false

end Token

/-- A text in the script that follows after the current line: it ends with a line that is the
mark. -/
structure Announced where
  number : Nat
  mark : Text
  expanded : Bool
  stripped : Bool

structure Reading where
  rest : Text
  line : Nat
  last : Token
  /-- The last token is to be read again. -/
  again : Bool
  announced : List Announced
  documents : List (Nat × Word)
  /-- The number of the next text in the script. -/
  next : Nat

/-- Reading fails with a message. -/
abbrev Read := ExceptT String (StateM Reading)

namespace Read

/-- Takes steps until one gives a result. -/
def repeated {σ α : Type} (step : σ → Read (σ ⊕ α)) : Nat → σ → Read α
  | 0, _ => throw "script too long"
  | n + 1, s => do
    match ← step s with
    | .inl s => repeated step n s
    | .inr a => return a

/-- Takes steps, each of which reads something, until one gives a result. -/
def exhaust {σ α : Type} (step : σ → Read (σ ⊕ α)) (s : σ) : Read α := do
  repeated step (2 * (← get).rest.length + 4) s

/-- Drops the joins of lines at the front of a text, and counts them. -/
def withoutJoins (joins : Nat) : Text → Text × Nat
  | '\\' :: '\n' :: rest => withoutJoins (joins + 1) rest
  | t => (t, joins)

/-- The next character, which stays; lines that are joined before it are. -/
def peek : Read (Option Char) := do
  let state ← get
  let (rest, joins) := withoutJoins 0 state.rest
  set { state with rest, line := state.line + joins }
  return rest.head?

/-- Drops the next character. -/
def skip : Read Unit := modify fun state => { state with rest := state.rest.drop 1 }

/-- Drops a line end. -/
def skipLineEnd : Read Unit :=
  modify fun state => { state with rest := state.rest.drop 1, line := state.line + 1 }

/-- Drops the next character if it is the given one, and tells so. -/
def skipIf (c : Char) : Read Bool := do
  if (← peek) = some c then
    skip
    return true
  else return false

/-- Puts the last token back. -/
def pushBack : Read Unit := modify fun state => { state with again := true }

def unexpected {α : Type} : Read α := do
  throw ((← get).last.shown ++ " unexpected")

def expected {α : Type} (token : Token) : Read α := do
  throw ((← get).last.shown ++ " unexpected (expecting " ++ token.shown ++ ")")

end Read

end MemberOrder.Shell
