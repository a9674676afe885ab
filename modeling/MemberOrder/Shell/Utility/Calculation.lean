import MemberOrder.Shell.Utility.Basic

/-!
The program that computes with its arguments: every argument is an operand, an operator or a
parenthesis.
-/

set_option autoImplicit false

namespace MemberOrder.Shell.Utility

namespace Calculation

/-- The integer that an operand is. -/
def integer? (t : Text) : Option Int :=
  let digits := if t.head? = some '-' then t.drop 1 else t
  if digits.isEmpty || !digits.all Char.isDigit then none
  else
    let n : Int := digits.foldl (fun n c => n * 10 + (c.toNat - '0'.toNat)) 0
    some (if t.head? = some '-' then -n else n)

/-- Does an operand count as false? -/
def isNull (t : Text) : Bool := t.isEmpty || integer? t = some 0

def ofBool (b : Bool) : Text := if b then ['1'] else ['0']

/-- How loosely an operator binds its operands. -/
def looseness? : String → Option Nat
  | "*" => some 0
  | "/" => some 0
  | "%" => some 0
  | "+" => some 1
  | "-" => some 1
  | "<" => some 2
  | "<=" => some 2
  | "=" => some 2
  | "==" => some 2
  | "!=" => some 2
  | ">=" => some 2
  | ">" => some 2
  | "&" => some 3
  | "|" => some 4
  | _ => none

/-- The loosest binding. -/
def loosest : Nat := 4

/-- Whether an operator that compares holds of operands in an order. -/
def holds (operator : String) (order : Ordering) : Bool :=
  match operator with
  | "<" => order == .lt
  | "<=" => order != .gt
  | ">" => order == .gt
  | ">=" => order != .lt
  | "!=" => order != .eq
  | _ => order == .eq

/-- What an operator makes of two integers. -/
def computed (operator : String) (a b : Int) : Except Text Int :=
  match operator with
  | "+" => .ok (a + b)
  | "-" => .ok (a - b)
  | "*" => .ok (a * b)
  | "/" => if b = 0 then .error "division by zero".toList else .ok (a.tdiv b)
  | _ => if b = 0 then .error "division by zero".toList else .ok (a.tmod b)

/-- What an operator makes of two operands. Integers are compared as such, others as texts. -/
def combined (operator : String) (a b : Text) : Except Text Text :=
  match operator with
  | "|" => .ok (if !isNull a then a else if isNull b then ['0'] else b)
  | "&" => .ok (if isNull a || isNull b then ['0'] else a)
  | _ =>
    match looseness? operator, integer? a, integer? b with
    | some 2, some m, some n => .ok (ofBool (holds operator (compare m n)))
    | some 2, _, _ => .ok (ofBool (holds operator (Text.compareCodePoints a b)))
    | _, some m, some n => (computed operator m n).map Octets.ofInt
    | _, _, _ => .error "non-integer argument".toList

/-- What is read of the arguments. -/
inductive Goal
  | operand
  /-- Operands joined by operators that bind no more loosely. -/
  | operation (looseness : Nat)
  /-- The same, behind its first operand, which has a value. -/
  | further (looseness : Nat) (left : Text)

def syntaxError {α : Type} (message : Text) : Except Text α :=
  .error ("syntax error: ".toList ++ message)

/-- Reads a value from arguments behind the argument `last`. Where `counts` is false it is only
read. -/
def compute : Nat → Bool → Goal → Text → List Text → Except Text (Text × Text × List Text)
  | 0, _, _, last, _ => syntaxError ("missing argument after ".toList ++ cited last)
  | fuel + 1, counts, .operand, last, arguments =>
    match arguments with
    | [] => syntaxError ("missing argument after ".toList ++ cited last)
    | ['('] :: rest => do
      let (value, last, rest) ← compute fuel counts (.operation loosest) ['('] rest
      match rest with
      | [')'] :: rest => return (value, [')'], rest)
      | [] => syntaxError ("expecting ')' after ".toList ++ cited last)
      | other :: _ => syntaxError ("expecting ')' instead of ".toList ++ cited other)
    | [')'] :: _ => syntaxError "unexpected ')'".toList
    | ['+'] :: rest =>
      match rest with
      | [] => syntaxError ("missing argument after ".toList ++ cited ['+'])
      | value :: rest => return (value, value, rest)
    | first :: rest =>
      if first = "length".toList then do
        let (value, last, rest) ← compute fuel counts .operand first rest
        return (Octets.ofNat value.length, last, rest)
      else return (first, first, rest)
  | fuel + 1, counts, .operation looseness, last, arguments => do
    let inner : Goal := if looseness = 0 then .operand else .operation (looseness - 1)
    let (left, last, rest) ← compute fuel counts inner last arguments
    compute fuel counts (.further looseness left) last rest
  | fuel + 1, counts, .further looseness left, last, arguments =>
    match arguments with
    | [] => return (left, last, [])
    | operator :: rest =>
      let spelling := String.ofList operator
      if looseness? spelling = some looseness then do
        let inner : Goal := if looseness = 0 then .operand else .operation (looseness - 1)
        let needsRight := (spelling != "|" || isNull left) && (spelling != "&" || !isNull left)
        let (right, last, rest) ← compute fuel (counts && needsRight) inner operator rest
        let value ← if counts && needsRight then combined spelling left right
          else .ok (if spelling = "&" then ['0'] else left)
        compute fuel counts (.further looseness value) last rest
      else return (left, last, arguments)

end Calculation

/-- Computes a value, and succeeds if it is not null. -/
def expr (arguments : List Text) : Action Nat := do
  let failed (message : Text) : Action Nat := do
    let _ ← complain "expr" message
    return 2
  match arguments with
  | [] =>
    let _ ← misused "expr" "missing operand".toList
    return 2
  | _ =>
    match Calculation.compute (8 * (arguments.length + 1)) true (.operation Calculation.loosest) []
      (if arguments.head? = some ['-', '-'] then arguments.drop 1 else arguments) with
    | .error message => failed message
    | .ok (_, _, other :: _) =>
      failed ("syntax error: unexpected argument ".toList ++ cited other)
    | .ok (value, _, []) =>
      print (value ++ ['\n'])
      return if Calculation.isNull value then 1 else 0

end MemberOrder.Shell.Utility
