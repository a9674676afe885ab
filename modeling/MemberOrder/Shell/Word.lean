import MemberOrder.Shell.Token

/-!
Reading words: quotes, parameters, substitutions and texts in the script. What may be nested is
read by the `Nested` readers.
-/

set_option autoImplicit false

namespace MemberOrder.Shell

/-- Where parts of a word are read. -/
inductive Context
  /-- Up to a blank or an operator. In a delimiter nothing is expanded. -/
  | bare (delimiter : Bool)
  /-- Up to a double quote; inside braces a brace may be escaped. -/
  | doubled (braced delimiter : Bool)
  /-- Up to a closing brace. -/
  | braces (quoted : Bool)
  /-- Up to two closing parentheses. -/
  | arithmetic
  /-- Up to a line that is the mark. -/
  | document (mark : Text) (expanded stripped : Bool)
deriving DecidableEq

/-- What kind of list of commands is read. -/
inductive ListKind
  /-- The commands of one line. -/
  | line
  /-- Commands up to a closing token, at least one. -/
  | body
  /-- The same, but there may be none. -/
  | optional
deriving DecidableEq

/-- The readers of what is nested. -/
structure Nested where
  parts : Context → Read (Word × Bool)
  list : ListKind → Read (Option Command)
  command : Bool → Bool → Read Command
  token : Read Token

namespace Context

/-- Are the characters that are read here quoted? -/
def isQuoted : Context → Bool
  | .bare _ => false
  | .doubled _ _ => true
  | .braces quoted => quoted
  | .arithmetic => true
  | .document _ _ _ => true

/-- Do dollar signs and backquotes stand for themselves? -/
def isRaw : Context → Bool
  | .bare delimiter => delimiter
  | .doubled _ delimiter => delimiter
  | _ => false

/-- Is the context inside braces? -/
def isBraced : Context → Bool
  | .doubled braced _ => braced
  | .braces _ => true
  | _ => false

/-- Does a backslash before the character quote it, where characters are quoted already? -/
def escapes (context : Context) (c : Char) : Bool :=
  ['\\', '\x60', '$'].contains c || c = '\x7d' && context.isBraced
    || c = '"' && match context with
      | .document _ _ _ => false
      | _ => true

end Context

/-- Characters that end a bare word. -/
def endsWord (c : Char) : Bool := ['<', '>', '(', ')', ';', '&', '|', ' ', '\t'].contains c

def literals (quoted : Bool) (t : Text) : Word := t.map (.literal · quoted)

def unterminated : String := "Unterminated quoted string"

/-- Reads up to a single quote, and over it. -/
def readSingleQuoted : Read Word := do
  let state ← get
  let body := state.rest.takeWhile (· != '\'')
  let rest := state.rest.drop body.length
  set { state with rest := rest.drop 1, line := state.line + body.count '\n' }
  if rest.isEmpty then throw unterminated
  return .mark :: literals true body

/-- Reads characters that have a property. -/
def readWhile (p : Char → Bool) : Read Text :=
  Read.exhaust (fun (name : Text) => do
    match ← Read.peek with
    | some c =>
      if p c then
        Read.skip
        return .inl (c :: name)
      else return .inr name.reverse
    | none => return .inr name.reverse) []

/-- What a parameter's use is before its word is read. -/
inductive UseStart
  | complete (use : Use)
  /-- Its word is read, and is of no interest. -/
  | ignored (use : Use)
  | absence (kind : Absence) (alsoEmpty : Bool)
  | trim (fromEnd longest : Bool)

def absence? : Char → Option Absence
  | '-' => some .default
  | '=' => some .assign
  | '?' => some .complain
  | '+' => some .alternative
  | _ => none

/-- Reads the operator behind a parameter's name in braces. -/
def readUse : Read UseStart := do
  let alsoEmpty ← Read.skipIf ':'
  match ← Read.peek with
  | none => return .ignored .bad
  | some c =>
    match absence? c with
    | some kind =>
      Read.skip
      return .absence kind alsoEmpty
    | none =>
      if c = '\x7d' then
        Read.skip
        return if alsoEmpty then .ignored .value else .complete .value
      else if (c = '%' || c = '#') && !alsoEmpty then
        Read.skip
        return .trim (c = '%') (← Read.skipIf c)
      else
        Read.skip
        return .ignored .bad

/-- Reads the name of a parameter in braces and what is wanted of it. -/
def readBraced : Read (Text × UseStart) := do
  match ← Read.peek with
  | none => return ([], .ignored .bad)
  | some c =>
    if isNameStart c then
      let name ← readWhile isNamePart
      return (name, ← readUse)
    else if c.isDigit then
      let name ← readWhile Char.isDigit
      return (name, ← readUse)
    else if c = '\x7d' then return ([], .ignored .bad)
    else
      Read.skip
      if c = '#' then
        match ← Read.peek with
        | none => return ([c], .ignored .bad)
        | some d =>
          if isNameStart d || d.isDigit then
            let name ← readWhile (if d.isDigit then Char.isDigit else isNamePart)
            if ← Read.skipIf '\x7d' then return (name, .complete .length)
            else return (name, .ignored .bad)
          else if d ≠ '\x7d' then
            let before ← get
            Read.skip
            if ← Read.skipIf '\x7d' then
              return ([d], .complete (if isSpecial d then .length else .bad))
            else
              set before
              return ([c], ← readUse)
          else return ([c], ← readUse)
      else if isSpecial c then return ([c], ← readUse)
      else return ([], .ignored .bad)

/-- Reads what follows a dollar sign. -/
def readDollar (nested : Nested) (context : Context) : Read Part := do
  let quoted := context.isQuoted
  match ← Read.peek with
  | some '(' =>
    Read.skip
    if ← Read.skipIf '(' then
      let (expression, _) ← nested.parts .arithmetic
      return .arithmetic expression quoted
    else
      let announced := (← get).announced
      modify fun state => { state with announced := [] }
      let body ← nested.list .optional
      match ← nested.token with
      | .rightParenthesis => pure ()
      | _ => Read.expected .rightParenthesis
      modify fun state => { state with announced }
      return .substitution body quoted
  | some '\x7b' =>
    Read.skip
    let (name, start) ← readBraced
    match start with
    | .complete use => return .parameter name use quoted
    | .ignored use =>
      let _ ← nested.parts (.braces quoted)
      return .parameter name use quoted
    | .absence kind alsoEmpty =>
      let (word, _) ← nested.parts (.braces quoted)
      return .parameter name (.absence kind alsoEmpty word) quoted
    | .trim fromEnd longest =>
      let (pattern, _) ← nested.parts (.braces false)
      return .parameter name (.trim fromEnd longest pattern) quoted
  | some c =>
    if isNameStart c then return .parameter (← readWhile isNamePart) .value quoted
    else if isSpecial c then
      Read.skip
      return .parameter [c] .value quoted
    else return .literal '$' quoted
  | none => return .literal '$' quoted

/-- Reads the script of a substitution up to a backquote, and over it. -/
def readBackquoted (quoted : Bool) : Read Text :=
  Read.exhaust (fun (script : Text) => do
    match ← Read.peek with
    | none => throw "EOF in backquote substitution"
    | some '\x60' =>
      Read.skip
      return .inr script.reverse
    | some '\\' =>
      Read.skip
      match (← get).rest with
      | [] => throw "EOF in backquote substitution"
      | c :: _ =>
        Read.skip
        if ['\\', '\x60', '$'].contains c || quoted && c = '"' then return .inl (c :: script)
        else return .inl (c :: '\\' :: script)
    | some '\n' =>
      Read.skipLineEnd
      return .inl ('\n' :: script)
    | some c =>
      Read.skip
      return .inl (c :: script)) []

/-- Reads a substitution in backquotes. -/
def readOldSubstitution (nested : Nested) (quoted : Bool) : Read Part := do
  let script ← readBackquoted quoted
  let outer ← get
  set { outer with rest := script, line := 1, announced := [] }
  let body ← nested.list .optional
  modify fun inner =>
    { inner with
      rest := outer.rest, line := outer.line, announced := outer.announced, again := false }
  return .substitution body quoted

/-- The text that follows when a line is the mark. -/
def afterMark? (mark : Text) (stripped : Bool) (t : Text) : Option Text :=
  let t := if stripped then t.dropWhile (· = '\t') else t
  if mark.isPrefixOf t then
    match t.drop mark.length with
    | [] => some []
    | '\n' :: rest => some rest
    | _ => none
  else none

/-- What has been read of a word: its parts, the last first, whether there were quotes, how many
parentheses are open, and whether a line begins. -/
structure Partial where
  parts : Word
  quoted : Bool
  depth : Nat
  atLineStart : Bool

namespace Partial

def add (word : Partial) (part : Part) : Partial :=
  { word with parts := part :: word.parts, atLineStart := false }

def addAll (word : Partial) (parts : Word) : Partial :=
  { word with parts := parts.reverse ++ word.parts, quoted := true, atLineStart := false }

def result (word : Partial) : Word × Bool := (word.parts.reverse, word.quoted)

end Partial

/-- The parts between double quotes. All the arguments between quotes of their own are as many
words as there are arguments, so that there may be none. -/
def doubledParts (parts : Word) : Word :=
  match parts with
  | [.parameter ['@'] .value true] => parts
  | _ => .mark :: parts

/-- What reading gives at the end of the script. -/
def atEnd (context : Context) (word : Partial) : Read (Word × Bool) :=
  match context with
  | .bare _ => return word.result
  | .doubled _ _ => throw unterminated
  | .braces false => throw "Missing '\x7d'"
  | .braces true => throw unterminated
  | .arithmetic => throw "Missing '))'"
  | .document _ _ _ => return word.result

/-- Reads one part of a word. -/
def readPart (nested : Nested) (context : Context) (word : Partial) :
    Read (Partial ⊕ (Word × Bool)) := do
  if let .document mark expanded stripped := context then
    if word.atLineStart then
      let state ← get
      if let some rest := afterMark? mark stripped state.rest then
        set { state with rest, line := state.line + 1 }
        return .inr word.result
      if stripped then set { state with rest := state.rest.dropWhile (· = '\t') }
    if !expanded then
      match (← get).rest with
      | [] => return .inr word.result
      | c :: _ =>
        if c = '\n' then Read.skipLineEnd else Read.skip
        return .inl { word.add (.literal c true) with atLineStart := c = '\n' }
  let quoted := context.isQuoted
  match ← Read.peek with
  | none => return .inr (← atEnd context word)
  | some c =>
    let plain : Read (Partial ⊕ (Word × Bool)) := do
      Read.skip
      return .inl (word.add (.literal c quoted))
    match c with
    | '\n' =>
      if let .bare _ := context then return .inr word.result
      Read.skipLineEnd
      return .inl { word.add (.literal c quoted) with atLineStart := true }
    | '\\' =>
      Read.skip
      match (← get).rest with
      | [] => return .inl (word.add (.literal c true))
      | d :: _ =>
        Read.skip
        if quoted && !context.escapes d then
          return .inl { (word.add (.literal c true)).add (.literal d true) with quoted := true }
        else return .inl { word.add (.literal d true) with quoted := true }
    | '\'' =>
      if quoted then plain
      else
        Read.skip
        return .inl (word.addAll (← readSingleQuoted))
    | '"' =>
      match context with
      | .doubled _ _ =>
        Read.skip
        return .inr word.result
      | .arithmetic => plain
      | .document _ _ _ => plain
      | _ =>
        Read.skip
        let (parts, _) ← nested.parts (.doubled context.isBraced context.isRaw)
        return .inl (word.addAll (doubledParts parts))
    | '$' =>
      if context.isRaw then plain
      else
        Read.skip
        return .inl (word.add (← readDollar nested context))
    | '\x60' =>
      if context.isRaw then
        Read.skip
        return .inl { word.add (.literal c quoted) with quoted := true }
      else
        Read.skip
        return .inl (word.add (← readOldSubstitution nested quoted))
    | '\x7d' =>
      if let .braces _ := context then
        Read.skip
        return .inr word.result
      plain
    | _ =>
      match context with
      | .bare _ => if endsWord c then return .inr word.result else plain
      | .arithmetic =>
        if c = '(' then
          Read.skip
          return .inl { word.add (.literal c true) with depth := word.depth + 1 }
        else if c = ')' then
          Read.skip
          if word.depth > 0 then
            return .inl { word.add (.literal c true) with depth := word.depth - 1 }
          else if ← Read.skipIf ')' then return .inr word.result
          else return .inl (word.add (.literal c true))
        else plain
      | _ => plain

/-- Reads the parts of a word, and tells whether there were quotes. -/
def readParts (nested : Nested) (context : Context) : Read (Word × Bool) :=
  Read.exhaust (readPart nested context) ⟨[], false, 0, true⟩

end MemberOrder.Shell
