import MemberOrder.Shell.Word

/-!
Reading commands. A script is read line by line: `readLine` gives the commands of the next line,
with all the further lines that they reach over.
-/

set_option autoImplicit false

namespace MemberOrder.Shell

/-- Reads the texts in the script that the line before has announced. -/
def readDocuments (nested : Nested) : Read Unit := do
  let announced := (← get).announced
  modify fun state => { state with announced := [] }
  for document in announced do
    let (word, _) ←
      nested.parts (.document document.mark document.expanded document.stripped)
    modify fun state => { state with documents := (document.number, word) :: state.documents }

/-- The rest of a redirection operator, behind its first character, by the second one. -/
def outputOperator? : Option Char → Option Operator
  | some '>' => some (.file .append)
  | some '|' => some (.file .clobber)
  | some '&' => some .descriptor
  | _ => none

def inputOperator? : Option Char → Option Operator
  | some '<' => some (.document false)
  | some '&' => some .descriptor
  | some '>' => some (.file .both)
  | _ => none

/-- Reads a redirection operator for a descriptor, or for the operator's own one. -/
def readOperator (descriptor : Option Nat) : Read Token := do
  let isOutput ← Read.skipIf '>'
  if !isOutput then Read.skip
  let second ← Read.peek
  let own := if isOutput then 1 else 0
  match if isOutput then outputOperator? second else inputOperator? second with
  | none => return .redirection (descriptor.getD own) (.file (if isOutput then .output else .input))
  | some operator =>
    Read.skip
    match operator with
    | .document _ =>
      let stripped ← Read.skipIf '-'
      return .redirection (descriptor.getD own) (.document stripped)
    | _ => return .redirection (descriptor.getD own) operator

/-- The descriptor that a word before a redirection operator stands for. -/
def descriptorBefore? : Word → Option (Option Nat)
  | [] => some none
  | [.literal c false] => if c.isDigit then some (some (c.toNat - 48)) else none
  | _ => none

/-- Reads a word, or a redirection operator with the digit before it. -/
def readWord (nested : Nested) (delimiter : Bool) : Read Token := do
  let (parts, quoted) ← nested.parts (.bare delimiter)
  match ← Read.peek with
  | some c =>
    match c = '<' || c = '>', quoted, descriptorBefore? parts with
    | true, false, some descriptor => readOperator descriptor
    | _, _, _ => return .word parts quoted
  | none => return .word parts quoted

/-- Reads the next token of the script. -/
def readFresh (nested : Nested) (delimiter : Bool) : Read Token :=
  Read.exhaust (fun (_ : Unit) => do
    let single (token : Token) : Read (Unit ⊕ Token) := do
      Read.skip
      return .inr token
    let double (c : Char) (twice once : Token) : Read (Unit ⊕ Token) := do
      Read.skip
      return .inr (if ← Read.skipIf c then twice else once)
    match ← Read.peek with
    | none => return .inr .endOfFile
    | some ' ' =>
      Read.skip
      return .inl ()
    | some '\t' =>
      Read.skip
      return .inl ()
    | some '#' =>
      modify fun state => { state with rest := state.rest.dropWhile (· != '\n') }
      return .inl ()
    | some '\n' =>
      Read.skipLineEnd
      return .inr .newline
    | some '&' => double '&' .conjunction .background
    | some '|' => double '|' .disjunction .pipe
    | some ';' => double ';' .endOfBranch .semicolon
    | some '(' => single .leftParenthesis
    | some ')' => single .rightParenthesis
    | some _ => return .inr (← readWord nested delimiter)) ()

/-- The next token, or the last one where it was put back. -/
def nextToken (nested : Nested) (delimiter : Bool) : Read Token := do
  let state ← get
  if state.again then
    set { state with again := false }
    return state.last
  else
    let token ← readFresh nested delimiter
    modify fun state => { state with last := token }
    return token

/-- Reads a token. Newlines before it are passed over, and it may be a keyword, where that is asked
for. -/
def readToken (nested : Nested) (newlines keywords delimiter : Bool) : Read Token := do
  let first ← nextToken nested delimiter
  let token ←
    if newlines then
      Read.exhaust (fun (token : Token) => do
        match token with
        | .newline =>
          readDocuments nested
          return .inl (← nextToken nested delimiter)
        | _ => return .inr token) first
    else pure first
  let token := if keywords then token.asKeyword else token
  modify fun state => { state with last := token }
  return token

/-- Reads a token as it stands. -/
def plainToken (nested : Nested) : Read Token := readToken nested false false false

/-- Reads a token, which must be the given one. -/
def require (nested : Nested) (name : String) : Read Unit := do
  if !(← plainToken nested).isKeyword name then Read.expected (.keyword name)

/-- A text with its quotes dropped. -/
def Word.unquoted (word : Word) : Text :=
  word.filterMap fun
    | .literal c _ => some c
    | _ => none

/-- Reads the word of a redirection. -/
def readRedirection (nested : Nested) (descriptor : Nat) (operator : Operator) :
    Read Redirection := do
  let delimiter := match operator with
    | .document _ => true
    | _ => false
  match ← readToken nested false false delimiter with
  | .word parts quoted =>
    match operator with
    | .file opening => return .mk descriptor (.file opening parts)
    | .descriptor => return .mk descriptor (.descriptor parts)
    | .document stripped =>
      let number := (← get).next
      modify fun state =>
        { state with
          next := number + 1
          announced := state.announced ++ [⟨number, Word.unquoted parts, !quoted, stripped⟩] }
      return .mk descriptor (.document number)
  | _ => Read.unexpected

/-- The builtin commands that are special: functions do not take their names. -/
def specialBuiltins : List String :=
  [".", ":", "break", "continue", "eval", "exec", "exit", "export", "local", "readonly", "return",
    "set", "shift", "times", "trap", "unset"]

/-- What has been read of a simple command, the last first. -/
structure Simple where
  assignments : List Word
  words : List Word
  redirections : List Redirection

/-- Reads a simple command or the definition of a function. -/
def readSimple (nested : Nested) : Read Command := do
  let line := (← get).line
  Read.exhaust (fun (simple : Simple) => do
    match ← plainToken nested with
    | .word parts _ =>
      if simple.words.isEmpty && (Word.assignment? parts).isSome then
        return .inl { simple with assignments := parts :: simple.assignments }
      else return .inl { simple with words := parts :: simple.words }
    | .redirection descriptor operator =>
      let redirection ← readRedirection nested descriptor operator
      return .inl { simple with redirections := redirection :: simple.redirections }
    | token =>
      match token, simple with
      | .leftParenthesis, ⟨[], [word], []⟩ =>
        match ← plainToken nested with
        | .rightParenthesis => pure ()
        | _ => Read.expected .rightParenthesis
        match Word.plain? word with
        | some name =>
          if !isName name || specialBuiltins.contains (String.ofList name) then
            throw "Bad function name"
          return .inr (.function name (← nested.command true true))
        | none => throw "Bad function name"
      | _, _ =>
        Read.pushBack
        return .inr
          (.simple line simple.assignments.reverse simple.words.reverse
            simple.redirections.reverse)) ⟨[], [], []⟩

/-- A command that does nothing. -/
def Command.empty : Command := .simple 1 [] [] []

/-- Reads a list of commands that ends with a closing token. -/
def readBody (nested : Nested) : Read Command := do
  return (← nested.list .body).getD .empty

/-- What an `if` and every `elif` of it have: a test and what runs when it succeeds. -/
def readArm (nested : Nested) : Read (Command × Command) := do
  let test ← readBody nested
  require nested "then"
  return (test, ← readBody nested)

/-- The arms of a conditional, the last first, as one command. -/
def armsCommand (arms : List (Command × Command)) (failure : Option Command) : Option Command :=
  arms.foldl (fun failure (test, success) => some (.conditional test success failure)) failure

/-- Reads a conditional after its first keyword. -/
def readConditional (nested : Nested) : Read Command := do
  let first ← readArm nested
  Read.exhaust (fun (arms : List (Command × Command)) => do
    match ← plainToken nested with
    | .keyword "elif" => return .inl ((← readArm nested) :: arms)
    | token =>
      let failure ←
        if token.isKeyword "else" then pure (some (← readBody nested))
        else
          Read.pushBack
          pure none
      require nested "fi"
      match armsCommand arms failure with
      | some command => return .inr command
      | none => Read.unexpected) [first]

/-- The word that stands for all arguments. -/
def allArguments : Word := [.parameter ['@'] .value true]

/-- Reads the words of an iteration up to the end of its line. -/
def readIterationWords (nested : Nested) : Read (List Word) :=
  Read.exhaust (fun (words : List Word) => do
    match ← plainToken nested with
    | .word parts _ => return .inl (parts :: words)
    | .newline => return .inr words.reverse
    | .semicolon => return .inr words.reverse
    | _ => Read.unexpected) []

/-- Reads an iteration after its keyword. -/
def readIteration (nested : Nested) (line : Nat) : Read Command := do
  let name ← match ← plainToken nested with
    | .word parts quoted =>
      match quoted, Word.plain? parts with
      | false, some name => if isName name then pure name else throw "Bad for loop variable"
      | _, _ => throw "Bad for loop variable"
    | _ => throw "Bad for loop variable"
  let token ← readToken nested true true false
  let words ←
    if token.isKeyword "in" then readIterationWords nested
    else
      match token with
      | .semicolon => pure ()
      | _ => Read.pushBack
      pure [allArguments]
  if !(← readToken nested true true false).isKeyword "do" then Read.expected (.keyword "do")
  let body ← readBody nested
  require nested "done"
  return .iteration line name words body

/-- The word of a token, as a pattern. -/
def Token.asPattern : Token → Word
  | .word parts _ => parts
  | .keyword name => literals false name.toList
  | _ => []

/-- Reads the patterns of a branch, from the given first token on, up to the parenthesis. -/
def readPatterns (nested : Nested) (first : Token) : Read (List Word) :=
  Read.exhaust (fun (patterns : List Word) => do
    match ← plainToken nested with
    | .pipe => return .inl ((← plainToken nested).asPattern :: patterns)
    | .rightParenthesis => return .inr patterns.reverse
    | _ => Read.expected .rightParenthesis) [first.asPattern]

/-- Reads a choice after its keyword. -/
def readChoice (nested : Nested) (line : Nat) : Read Command := do
  let subject ← match ← plainToken nested with
    | .word parts _ => pure parts
    | _ => Read.expected (.word [] false)
  if !(← readToken nested true true false).isKeyword "in" then Read.expected (.keyword "in")
  Read.exhaust (fun (branches : List Branch) => do
    let token ← readToken nested true true false
    if token.isKeyword "esac" then return .inr (.choice line subject branches.reverse)
    let first ← match token with
      | .leftParenthesis => plainToken nested
      | _ => pure token
    let patterns ← readPatterns nested first
    let branch := Branch.mk patterns (← nested.list .optional)
    match ← readToken nested true true false with
    | .endOfBranch => return .inl (branch :: branches)
    | token =>
      if token.isKeyword "esac" then
        return .inr (.choice line subject (branch :: branches).reverse)
      else Read.expected .endOfBranch) []

/-- Reads the redirections behind a command. -/
def readRedirections (nested : Nested) : Read (List Redirection) :=
  Read.exhaust (fun (redirections : List Redirection) => do
    match ← readToken nested false redirections.isEmpty false with
    | .redirection descriptor operator =>
      return .inl ((← readRedirection nested descriptor operator) :: redirections)
    | _ =>
      Read.pushBack
      return .inr redirections.reverse) []

/-- Puts redirections around a command. A shell inside the shell has those behind it, and none from
before. -/
def withRedirections (line : Nat) (command : Command) (redirections : List Redirection) : Command :=
  match command, redirections with
  | _, [] => command
  | .subshell line body _ false, _ => .subshell line body redirections false
  | _, _ => .redirected line command redirections

/-- Reads a command. Before its first token newlines may be passed over. -/
def readCommand (nested : Nested) (newlines keywords : Bool) : Read Command := do
  let line := (← get).line
  let compound (command : Command) : Read Command := do
    return withRedirections line command (← readRedirections nested)
  match ← readToken nested newlines keywords false with
  | .keyword "if" => compound (← readConditional nested)
  | .keyword "for" => compound (← readIteration nested line)
  | .keyword "case" => compound (← readChoice nested line)
  | .keyword "\x7b" =>
    let body ← readBody nested
    require nested "\x7d"
    compound body
  | .leftParenthesis =>
    let body ← readBody nested
    match ← plainToken nested with
    | .rightParenthesis => compound (.subshell line body [] false)
    | _ => Read.expected .rightParenthesis
  | .word _ _ =>
    Read.pushBack
    readSimple nested
  | .redirection _ _ =>
    Read.pushBack
    readSimple nested
  | token =>
    if token.isKeyword "while" || token.isKeyword "until" then
      let test ← readBody nested
      require nested "do"
      let body ← readBody nested
      require nested "done"
      compound (.loop (token.isKeyword "until") test body)
    else Read.unexpected

/-- Reads commands that are joined by pipes. -/
def readPipeline (nested : Nested) (newlines keywords : Bool) : Read Command := do
  let negated := (← readToken nested newlines keywords false).isKeyword "!"
  if !negated then Read.pushBack
  let first ← readCommand nested false negated
  let command ← Read.exhaust (fun (commands : List Command) => do
    match ← plainToken nested with
    | .pipe => return .inl ((← readCommand nested true true) :: commands)
    | _ =>
      Read.pushBack
      return .inr (match commands with
        | [command] => command
        | _ => .pipeline commands.reverse false)) [first]
  return if negated then .negated command else command

/-- Reads pipelines that depend on how the ones before them end. -/
def readConditions (nested : Nested) : Read Command := do
  let first ← readPipeline nested false false
  Read.exhaust (fun (command : Command) => do
    match ← plainToken nested with
    | .conjunction => return .inl (.both command (← readPipeline nested true true))
    | .disjunction => return .inl (.either command (← readPipeline nested true true))
    | _ =>
      Read.pushBack
      return .inr command) first

/-- The command that runs while the shell goes on. -/
def inBackground : Command → Command
  | .pipeline elements _ => .pipeline elements true
  | .redirected line body redirections => .subshell line body redirections true
  | command => .subshell 1 command [] true

/-- One command after what was there before. -/
def andThen (before : Option Command) (command : Command) : Option Command :=
  match before with
  | some first => some (.sequence first command)
  | none => some command

/-- Reads a list of commands. -/
def readList (nested : Nested) (kind : ListKind) : Read (Option Command) :=
  let isLine := kind == .line
  Read.exhaust (fun (before : Option Command) => do
    let token ← readToken nested (!isLine) true false
    match token with
    | .newline =>
      readDocuments nested
      return .inr before
    | .endOfFile =>
      readDocuments nested
      Read.pushBack
      modify fun state => { state with last := .endOfFile }
      return .inr before
    | _ =>
      Read.pushBack
      if !isLine && token.endsList && (before.isSome || kind == .optional) then
        return .inr before
      let command ← readConditions nested
      match ← plainToken nested with
      | .background => return .inl (andThen before (inBackground command))
      | .semicolon => return .inl (andThen before command)
      | .newline =>
        Read.pushBack
        return .inl (andThen before command)
      | .endOfFile =>
        Read.pushBack
        return .inl (andThen before command)
      | _ =>
        if isLine then Read.unexpected
        Read.pushBack
        return .inr (andThen before command)) none

/-- The readers of what is nested, up to a depth. -/
def Nested.upTo : Nat → Nested
  | 0 =>
    ⟨fun _ => throw "too deep", fun _ => throw "too deep", fun _ _ => throw "too deep",
      throw "too deep"⟩
  | depth + 1 =>
    let nested := upTo depth
    ⟨readParts nested, readList nested, readCommand nested, plainToken nested⟩

/-- How deep commands may be nested. -/
def nestingLimit : Nat := 1000

/-- Reads the next line, and gives its commands if it has any. Gives nothing at the end of the
script. -/
def readLine : Read (Option (Option Command)) := do
  modify fun state => { state with again := false, announced := [] }
  let command ← (Nested.upTo nestingLimit).list .line
  match command, (← get).last with
  | none, .endOfFile => return none
  | _, _ => return some command

end MemberOrder.Shell
