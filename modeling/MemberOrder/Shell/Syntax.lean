import MemberOrder.Text.Basic

/-!
The commands of a shell and the words that they are made of.
-/

set_option autoImplicit false

namespace MemberOrder.Shell

/-- What happens to a parameter that is not set: it has a default, is assigned one or is complained
about; or it is the parameter that is set that stands for another word. -/
inductive Absence
  | default
  | assign
  | complain
  | alternative
deriving DecidableEq

/-- How a file is opened for a descriptor. -/
inductive Opening
  | input
  | output
  /-- For output, even if files are protected. -/
  | clobber
  | append
  | both
deriving DecidableEq

mutual

/-- A part of a word. What is quoted is neither split nor a pattern. -/
inductive Part
  | literal (c : Char) (quoted : Bool)
  /-- Quotes stand here, so that there is a word even if nothing is between them. -/
  | mark
  | parameter (name : Text) (use : Use) (quoted : Bool)
  | substitution (body : Option Command) (quoted : Bool)
  | arithmetic (expression : List Part) (quoted : Bool)

/-- What is made of a parameter's value. -/
inductive Use
  | value
  | length
  | absence (kind : Absence) (alsoEmpty : Bool) (word : List Part)
  | trim (fromEnd longest : Bool) (pattern : List Part)
  /-- No use that there is. -/
  | bad

inductive Target
  | file (opening : Opening) (path : List Part)
  | descriptor (word : List Part)
  /-- A text that stands in the script, by its number. -/
  | document (number : Nat)

inductive Redirection
  | mk (descriptor : Nat) (target : Target)

inductive Branch
  | mk (patterns : List (List Part)) (body : Option Command)

inductive Command
  | simple (line : Nat) (assignments words : List (List Part)) (redirections : List Redirection)
  | pipeline (elements : List Command) (background : Bool)
  | subshell (line : Nat) (body : Command) (redirections : List Redirection) (background : Bool)
  | redirected (line : Nat) (body : Command) (redirections : List Redirection)
  | sequence (first second : Command)
  | both (first second : Command)
  | either (first second : Command)
  | negated (body : Command)
  | conditional (test success : Command) (failure : Option Command)
  /-- Runs the body while the test succeeds, or while it fails. -/
  | loop (whileFails : Bool) (test body : Command)
  /-- Without words, the loop is over the arguments. -/
  | iteration (line : Nat) (name : Text) (words : List (List Part)) (body : Command)
  | choice (line : Nat) (subject : List Part) (branches : List Branch)
  | function (name : Text) (body : Command)

end

abbrev Word := List Part

/-- The text of a word without quotes and expansions. -/
def Word.plain? (word : Word) : Option Text :=
  word.mapM fun
    | .literal c false => some c
    | _ => none

def isNameStart (c : Char) : Bool := c.isAlpha || c = '_'

def isNamePart (c : Char) : Bool := c.isAlphanum || c = '_'

/-- Is the text the name of a variable? -/
def isName : Text → Bool
  | [] => false
  | c :: rest => isNameStart c && rest.all isNamePart

/-- Parameters other than variables that have a single character for a name. -/
def isSpecial (c : Char) : Bool := c.isDigit || ['#', '?', '$', '!', '-', '*', '@'].contains c

/-- The name and the value of a word that assigns. -/
def Word.assignment? (word : Word) : Option (Text × Word) :=
  let name := word.map (fun
    | .literal c false => c
    | _ => ' ') |>.takeWhile isNamePart
  match word.drop name.length with
  | .literal '=' false :: value => if isName name then some (name, value) else none
  | _ => none

end MemberOrder.Shell
