import MemberOrder.Shell.Arithmetic

/-!
Tests of texts, numbers and files.
-/

set_option autoImplicit false

namespace MemberOrder.Shell

namespace Test

def unaryOperators : List String :=
  ["-r", "-w", "-x", "-e", "-f", "-d", "-c", "-b", "-p", "-u", "-g", "-k", "-s", "-t", "-z", "-n",
    "-h", "-O", "-G", "-L", "-S"]

def binaryOperators : List String :=
  ["=", "!=", "<", ">", "-eq", "-ne", "-ge", "-gt", "-le", "-lt", "-nt", "-ot", "-ef"]

/-- What a word is in a test. -/
inductive Role
  | missing
  | operand
  | unary (operator : String)
  | binary (operator : String)
  | negation
  | conjunction
  | disjunction
  | opening
  | closing
deriving DecidableEq

def operator? (word : Text) : Option Role :=
  let spelling := String.ofList word
  if unaryOperators.contains spelling then some (.unary spelling)
  else if binaryOperators.contains spelling then some (.binary spelling)
  else
    match spelling with
    | "!" => some .negation
    | "-a" => some .conjunction
    | "-o" => some .disjunction
    | "(" => some .opening
    | ")" => some .closing
    | _ => none

def isBinary (word : Text) : Bool := binaryOperators.contains (String.ofList word)

/-- Is a word an operand, though it is spelled as a unary operator? -/
def isOperand (words : List Text) (position : Nat) : Bool :=
  match words[position + 1]?, words[position + 2]? with
  | none, _ => true
  | some _, none => false
  | some word, some _ => isBinary word

/-- The role of the word at a position. -/
def role (words : List Text) (position : Nat) : Role :=
  match words[position]? with
  | none => .missing
  | some word =>
    match operator? word with
    | some (.unary operator) =>
      if isOperand words position then .operand else .unary operator
    | some .opening => if words[position + 1]?.isNone then .operand else .opening
    | some role => role
    | none => .operand

/-- Complains of a word. -/
def refuse {α : Type} (word : Text) (message : String) : Action α :=
  fail (if word.isEmpty then message.toList else word ++ ": ".toList ++ message.toList)

/-- Does a path end in a link? -/
def isLink (path : Text) : Action Bool := do
  match ← locate path with
  | .ok ⟨_, _, some i⟩ =>
    match (← get).files.node? i with
    | some (.link _) => return true
    | _ => return false
  | _ => return false

/-- What a unary operator says of a word. -/
def holds (operator : String) (word : Text) : Action Bool := do
  match operator with
  | "-z" => return word.isEmpty
  | "-n" => return !word.isEmpty
  | "-t" =>
    let _ ← integer word
    return false
  | "-h" => isLink word
  | "-L" => isLink word
  | _ =>
    match ← find word with
    | .error _ => return false
    | .ok (i, node) =>
      match operator, node with
      | "-f", .file _ => return true
      | "-f", .guarded _ _ => return true
      | "-d", .directory _ _ => return true
      | "-d", .barred _ => return true
      | "-c", .sink => return true
      | "-s", .file bytes => return !bytes.isEmpty
      | "-s", .sink => return false
      | "-s", .guarded (some bytes) _ => return !bytes.isEmpty
      | "-x", .file _ => return false
      | "-x", .sink => return false
      | "-x", .guarded _ _ => return (Host.program? i).isSome
      | "-r", .guarded readable _ => return readable.isSome
      | "-w", .guarded _ _ => return false
      | _, _ => return ["-e", "-r", "-w", "-x", "-s", "-O", "-G"].contains operator

/-- What a binary operator says of two words. -/
def relates (operator : String) (left right : Text) : Action Bool := do
  let numbers (relation : Int → Int → Bool) : Action Bool := do
    let a ← integer left
    return relation a (← integer right)
  match operator with
  | "=" => return left == right
  | "!=" => return left != right
  | "<" => return Text.compareCodePoints left right == .lt
  | ">" => return Text.compareCodePoints left right == .gt
  | "-eq" => numbers (· == ·)
  | "-ne" => numbers (· != ·)
  | "-ge" => numbers fun a b => decide (a ≥ b)
  | "-gt" => numbers fun a b => decide (a > b)
  | "-le" => numbers fun a b => decide (a ≤ b)
  | "-lt" => numbers fun a b => decide (a < b)
  | "-ef" =>
    match ← find left, ← find right with
    | .ok (a, _), .ok (b, _) => return a == b
    | _, _ => return false
  | _ => return false

/-- What is evaluated of a test. -/
inductive Goal
  | disjunction (sofar : Bool)
  | conjunction (sofar : Bool)
  | negation
  | primary

/-- Evaluates a test from the word at a position on, which has the given role, and gives the
position of the last word that belongs to it. -/
def evaluate (words : List Text) : Nat → Goal → Role → Nat → Action (Bool × Nat)
  | 0, _, _, position => return (false, position)
  | fuel + 1, .disjunction sofar, current, position => do
    let (result, last) ← evaluate words fuel (.conjunction true) current position
    let sofar := sofar || result
    if role words (last + 1) = .disjunction then
      evaluate words fuel (.disjunction sofar) (role words (last + 2)) (last + 2)
    else return (sofar, last)
  | fuel + 1, .conjunction sofar, current, position => do
    let (result, last) ← evaluate words fuel .negation current position
    let sofar := sofar && result
    if role words (last + 1) = .conjunction then
      evaluate words fuel (.conjunction sofar) (role words (last + 2)) (last + 2)
    else return (sofar, last)
  | fuel + 1, .negation, current, position => do
    if current = .negation then
      let next := role words (position + 1)
      let (result, last) ← evaluate words fuel .negation next
        (if next = .missing then position else position + 1)
      return (!result, last)
    else evaluate words fuel .primary current position
  | fuel + 1, .primary, current, position => do
    match current with
    | .missing => return (false, position)
    | .opening =>
      let inner := role words (position + 1)
      if inner = .closing then return (false, position + 1)
      let (result, last) ← evaluate words fuel (.disjunction false) inner (position + 1)
      if role words (last + 1) ≠ .closing then refuse [] "closing paren expected"
      return (result, last + 1)
    | .unary operator =>
      match words[position + 1]? with
      | none => refuse operator.toList "argument expected"
      | some word => return (← holds operator word, position + 1)
    | _ =>
      let word := (words[position]?).getD []
      match role words (position + 1) with
      | .binary operator =>
        match words[position + 2]? with
        | none => refuse operator.toList "argument expected"
        | some right => return (← relates operator word right, position + 2)
      | _ => return (!word.isEmpty, position)

/-- Evaluates all of the words. -/
def all (words : List Text) (first : Role) : Action Bool := do
  let (result, last) ← evaluate words (6 * words.length + 6) (.disjunction false) first 0
  match words[last]?, words[last + 1]? with
  | some word, some _ => refuse word "unexpected operator"
  | _, _ => return result

/-- The result of a test. Three or four words are looked at as a whole first. -/
def result (words : List Text) : Nat → Action Bool
  | 0 => return false
  | fuel + 1 => do
    let special : Option (Action Bool) := match words with
      | [_, operator, _] =>
        if isBinary operator then some (all words .operand) else none
      | _ => none
    match special with
    | some action => action
    | none =>
      if words.isEmpty then return false
      else if words.length = 3 || words.length = 4 then
        if words.head? = some ['('] && words.getLast? = some [')'] then
          result (words.drop 1).dropLast fuel
        else if words.head? = some ['!'] then return !(← result (words.drop 1) fuel)
        else all words (role words 0)
      else all words (role words 0)

end Test

/-- The status of a test: success if it holds. The words of one that begins with a bracket end with
one. -/
def testStatus (bracketed : Bool) (words : List Text) : Action Nat := do
  if bracketed && (words.getLast?.bind List.head?) ≠ some ']' then fail "missing ]".toList
  let words := if bracketed then words.dropLast else words
  return if ← Test.result words (words.length + 1) then 0 else 1

end MemberOrder.Shell
