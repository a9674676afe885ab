import MemberOrder.Decimal.Shortest
import MemberOrder.Text.Numeral
import MemberOrder.Text.Raw

/-!
Values of any kind, as settings and tool arguments hold them, and how messages show them. A value
cannot be shown where it holds a number of more digits than the runtime writes out.
-/

set_option autoImplicit false

namespace MemberOrder

inductive Value
  | null
  | bool (b : Bool)
  | int (n : Int)
  | float (x : Float)
  | text (t : RawText)
  | list (items : List Value)
  | mapping (items : List (Value × Value))
deriving Inhabited

namespace Value

def ofString (s : String) : Value := .text (.ofString s)

mutual

/-- The value as it stands inside another, with texts quoted. -/
def literal? (limit : DigitLimit) : Value → Option Text
  | .null => some "None".toList
  | .bool true => some "True".toList
  | .bool false => some "False".toList
  | .int n => if limit.shows n then some (toString n).toList else none
  | .float x => some (Decimal.render x)
  | .text t => some t.quoted
  | .list items => (literals? limit items).map fun t => '[' :: t ++ [']']
  | .mapping items => (pairLiterals? limit items).map fun t => '\x7b' :: t ++ ['\x7d']

def literals? (limit : DigitLimit) : List Value → Option Text
  | [] => some []
  | [item] => item.literal? limit
  | item :: next :: rest => do
    let first ← item.literal? limit
    let others ← literals? limit (next :: rest)
    some (first ++ ',' :: ' ' :: others)

def pairLiterals? (limit : DigitLimit) : List (Value × Value) → Option Text
  | [] => some []
  | [(key, item)] => do
    let first ← key.literal? limit
    let second ← item.literal? limit
    some (first ++ ':' :: ' ' :: second)
  | (key, item) :: next :: rest => do
    let first ← key.literal? limit
    let second ← item.literal? limit
    let others ← pairLiterals? limit (next :: rest)
    some (first ++ ':' :: ' ' :: second ++ ',' :: ' ' :: others)

end

/-- The value as it stands in a message: a text as it is, anything else as a literal. -/
def shown? (limit : DigitLimit) : Value → Option RawText
  | .text t => some t
  | value => (value.literal? limit).map .ofText

/-- Is the value the truth value `b`, also when given as a number? -/
def isFlag (b : Bool) : Value → Bool
  | .bool c => b == c
  | .int n => n == if b then 1 else 0
  | .float x => x == if b then 1.0 else 0.0
  | _ => false

end Value

end MemberOrder
