import MemberOrder.Shell.State

/-!
Arithmetic on integers of 64 bits, which wrap around.
-/

set_option autoImplicit false

namespace MemberOrder.Shell

namespace Arithmetic

inductive Symbol
  | number (n : Int)
  | name (name : Text)
  | operator (spelling : String)
  /-- A character that no symbol begins with. -/
  | stray
deriving DecidableEq

/-- The range of the integers. -/
def modulus : Nat := 0x10000000000000000

def largest : Int := 0x7fffffffffffffff

def smallest : Int := -0x8000000000000000

def wrap (n : Int) : Int := n.bmod modulus

def digitValue (c : Char) : Nat :=
  if c.isDigit then c.toNat - '0'.toNat
  else if 'a' ≤ c && c ≤ 'f' then c.toNat - 'a'.toNat + 10
  else if 'A' ≤ c && c ≤ 'F' then c.toNat - 'A'.toNat + 10
  else 16

/-- The number that the digits of a base at the front of a text make, and what follows. -/
def readDigits (base : Nat) (t : Text) : Nat × Text :=
  let digits := t.takeWhile fun c => digitValue c < base
  (digits.foldl (fun n c => n * base + digitValue c) 0, t.drop digits.length)

/-- The number at the front of a text that begins with a digit: a leading zero makes it octal, and
an `x` behind that hexadecimal. -/
def readNumber (t : Text) : Nat × Text :=
  let decimal := if t.head? = some '0' then readDigits 8 t else readDigits 10 t
  match t with
  | '0' :: x :: c :: rest =>
    if (x = 'x' || x = 'X') && digitValue c < 16 then readDigits 16 (c :: rest) else decimal
  | _ => decimal

/-- The operators, the longer ones first. -/
def operators : List String :=
  ["<<=", ">>=", "<<", ">>", "<=", ">=", "==", "!=", "&&", "||", "+=", "-=", "*=", "/=", "%=", "&=",
    "|=", "^=", "+", "-", "*", "/", "%", "<", ">", "&", "|", "^", "!", "~", "?", ":", "=", "(", ")"]

/-- The symbol at the front of a text, and what follows. -/
def readSymbol (c : Char) (rest : Text) : Symbol × Text :=
  let t := c :: rest
  if c.isDigit then
    let (n, rest) := readNumber t
    (.number (min n largest), rest)
  else if isNameStart c then (.name (t.takeWhile isNamePart), t.dropWhile isNamePart)
  else
    match operators.find? fun spelling => spelling.toList.isPrefixOf t with
    | some spelling => (.operator spelling, t.drop spelling.length)
    | none => (.stray, rest)

def isBlank (c : Char) : Bool := c = ' ' || c = '\t' || c = '\n'

/-- The symbols of a text. -/
def symbols : Nat → Text → List Symbol
  | 0, _ => []
  | _, [] => []
  | fuel + 1, c :: rest =>
    if isBlank c then symbols fuel rest
    else
      let (symbol, rest) := readSymbol c rest
      symbol :: symbols fuel rest

/-- How loosely an operator binds its operands. -/
def looseness? : String → Option Nat
  | "*" => some 0
  | "/" => some 0
  | "%" => some 0
  | "+" => some 1
  | "-" => some 1
  | "<<" => some 2
  | ">>" => some 2
  | "<" => some 3
  | "<=" => some 3
  | ">" => some 3
  | ">=" => some 3
  | "==" => some 4
  | "!=" => some 4
  | "&" => some 5
  | "^" => some 6
  | "|" => some 7
  | "&&" => some 8
  | "||" => some 9
  | _ => none

/-- The loosest binding. -/
def loosest : Nat := 9

/-- The operator of an operator that assigns. -/
def assigning? : String → Option (Option String)
  | "=" => some none
  | "+=" => some (some "+")
  | "-=" => some (some "-")
  | "*=" => some (some "*")
  | "/=" => some (some "/")
  | "%=" => some (some "%")
  | "&=" => some (some "&")
  | "|=" => some (some "|")
  | "^=" => some (some "^")
  | "<<=" => some (some "<<")
  | ">>=" => some (some ">>")
  | _ => none

def truth (b : Bool) : Int := if b then 1 else 0

/-- How far a shift goes. -/
def shiftWidth (n : Int) : Nat := (n.emod 64).toNat

/-- What an operator makes of two numbers; nothing when it divides by zero. -/
def combine? (operator : String) (a b : Int) : Option Int :=
  let bits (f : Nat → Nat → Nat) : Int :=
    wrap (f (a.emod modulus).toNat (b.emod modulus).toNat)
  match operator with
  | "*" => some (wrap (a * b))
  | "/" => if b = 0 then none else some (wrap (a.tdiv b))
  | "%" => if b = 0 then none else some (a.tmod b)
  | "+" => some (wrap (a + b))
  | "-" => some (wrap (a - b))
  | "<<" => some (wrap (a * Int.pow 2 (shiftWidth b)))
  | ">>" => some (a.fdiv (Int.pow 2 (shiftWidth b)))
  | "<" => some (truth (a < b))
  | "<=" => some (truth (a ≤ b))
  | ">" => some (truth (a > b))
  | ">=" => some (truth (a ≥ b))
  | "==" => some (truth (a = b))
  | "!=" => some (truth (a ≠ b))
  | "&" => some (bits Nat.land)
  | "^" => some (bits Nat.xor)
  | "|" => some (bits Nat.lor)
  | _ => some 0

/-- The number that a whole text is, with blanks around it, in decimal or as it is spelled. -/
def integer? (decimal : Bool) (t : Text) : Option Int :=
  let isSpace (c : Char) : Bool := c = ' ' || (9 ≤ c.toNat && c.toNat ≤ 13)
  let t := t.dropWhile isSpace
  let (negative, t) := match t with
    | '-' :: rest => (true, rest)
    | '+' :: rest => (false, rest)
    | _ => (false, t)
  if (t.head?.map Char.isDigit).getD false then
    let (n, rest) := if decimal then readDigits 10 t else readNumber t
    let value : Int := if negative then -n else n
    if rest.all isSpace && smallest ≤ value && value ≤ largest then some value else none
  else none

end Arithmetic

open Arithmetic

def illegalNumber {α : Type} (t : Text) : Action α := fail ("Illegal number: ".toList ++ t)

/-- The number that an argument of a command is. -/
def integer (t : Text) : Action Int :=
  match integer? true t with
  | some n => return n
  | none => illegalNumber t

/-- The count that an argument of a command is. -/
def count (t : Text) : Action Nat := do
  let n ← integer t
  if n < 0 || n > 2147483647 then illegalNumber t
  return n.toNat

/-- The number that a variable holds; one that is not set or empty holds zero. -/
def variableNumber (name : Text) : Action Int := do
  let text := (← value? name).getD []
  if text.all Arithmetic.isBlank then return 0
  match integer? false text with
  | some n => return n
  | none => illegalNumber text

def arithmeticError {α : Type} (source : Text) (message : String) : Action α :=
  fail ("arithmetic expression: ".toList ++ message.toList ++ ": \"".toList ++ source ++ ['"'])

namespace Arithmetic

/-- What is read of an expression. -/
inductive Goal
  | assignment
  | condition
  | primary
  /-- Operands joined by operators that bind no more loosely. -/
  | operation (looseness : Nat)
  /-- The same, behind its first operand, which has a value. -/
  | further (looseness : Nat) (left : Int)

/-- What is read for an operand of operators that bind that loosely. -/
def Goal.operand (looseness : Nat) : Goal :=
  if looseness = 0 then .primary else .operation (looseness - 1)

/-- What an operator makes of two numbers that stand in the text `source`. -/
def combined (source : Text) (operator : String) (a b : Int) : Action Int :=
  match combine? operator a b with
  | some n => return n
  | none => arithmeticError source "division by zero"

/-- What an operator before a number makes of it. -/
def signed (operator : String) (n : Int) : Int :=
  match operator with
  | "-" => wrap (-n)
  | "!" => truth (n = 0)
  | "~" => -n - 1
  | _ => n

/-- Whether an operator still needs its right operand when it has the left one. -/
def needsRight (operator : String) (left : Int) : Bool :=
  match operator with
  | "&&" => left ≠ 0
  | "||" => left = 0
  | _ => true

/-- The value of an operation in the text `source`. -/
def operationValue (source : Text) (operator : String) (left right : Int) : Action Int :=
  match operator with
  | "&&" => return truth (left ≠ 0 && right ≠ 0)
  | "||" => return truth (left ≠ 0 || right ≠ 0)
  | _ => combined source operator left right

/-- Reads an expression from the symbols of the text `source`, and computes its value on the way, so
that of two faults the first one is met. Where `counts` is false the expression is only read: no
variable is looked at or set. -/
def compute (source : Text) : Nat → Bool → Goal → List Symbol → Action (Int × List Symbol)
  | 0, _, _, _ => arithmeticError source "expecting primary"
  | fuel + 1, counts, .assignment, symbols =>
    match symbols with
    | .name name :: .operator spelling :: rest =>
      match assigning? spelling with
      | some operator => do
        let (value, rest) ← compute source fuel counts .assignment rest
        if !counts then return (value, rest)
        let value ← match operator with
          | none => pure value
          | some operator => combined source operator (← variableNumber name) value
        assign name (Octets.ofInt value)
        return (value, rest)
      | none => compute source fuel counts .condition symbols
    | _ => compute source fuel counts .condition symbols
  | fuel + 1, counts, .condition, symbols => do
    let (test, rest) ← compute source fuel counts (.operation loosest) symbols
    match rest with
    | .operator "?" :: rest =>
      let (success, rest) ← compute source fuel (counts && test ≠ 0) .assignment rest
      match rest with
      | .operator ":" :: rest =>
        let (failure, rest) ← compute source fuel (counts && test = 0) .condition rest
        return (if test = 0 then failure else success, rest)
      | _ => arithmeticError source "expecting ':'"
    | _ => return (test, rest)
  | fuel + 1, counts, .operation looseness, symbols => do
    let (left, rest) ← compute source fuel counts (.operand looseness) symbols
    compute source fuel counts (.further looseness left) rest
  | fuel + 1, counts, .further looseness left, symbols =>
    match symbols with
    | .operator spelling :: rest =>
      if looseness? spelling = some looseness then do
        let (right, rest) ←
          compute source fuel (counts && needsRight spelling left) (.operand looseness) rest
        let value ← if counts then operationValue source spelling left right else pure 0
        compute source fuel counts (.further looseness value) rest
      else return (left, symbols)
    | _ => return (left, symbols)
  | fuel + 1, counts, .primary, symbols =>
    match symbols with
    | .number n :: rest => return (n, rest)
    | .name name :: rest => do
      if counts then return (← variableNumber name, rest) else return (0, rest)
    | .operator "(" :: rest => do
      let (inner, rest) ← compute source fuel counts .assignment rest
      match rest with
      | .operator ")" :: rest => return (inner, rest)
      | _ => arithmeticError source "expecting ')'"
    | .operator spelling :: rest =>
      if ["+", "-", "!", "~"].contains spelling then do
        let (operand, rest) ← compute source fuel counts .primary rest
        return (signed spelling operand, rest)
      else arithmeticError source "expecting primary"
    | _ => arithmeticError source "expecting primary"

end Arithmetic

/-- The value of the expression that a text is. -/
def evaluateArithmetic (source : Text) : Action Int := do
  let symbols := symbols source.length source
  match ← compute source (16 * (symbols.length + 1)) true .assignment symbols with
  | (value, []) => return value
  | _ => arithmeticError source "expecting EOF"

end MemberOrder.Shell
