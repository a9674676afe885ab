import MemberOrder.Settings.Value

/-!
Comparing values of any kind. Truth values count as the numbers zero and one, and numbers are
compared by what they stand for, be they whole or not. Texts are ordered by code point, and lists
by the first items in which they differ. All else has no order.
-/

set_option autoImplicit false

namespace MemberOrder

inductive Relation
  | less
  | lessOrEqual
  | greater
  | greaterOrEqual
deriving DecidableEq

namespace Relation

def symbol : Relation → String
  | .less => "<"
  | .lessOrEqual => "<="
  | .greater => ">"
  | .greaterOrEqual => ">="

def holds : Relation → Ordering → Bool
  | .less => Ordering.isLT
  | .lessOrEqual => Ordering.isLE
  | .greater => Ordering.isGT
  | .greaterOrEqual => Ordering.isGE

end Relation

/-- A comparison of two things that have no order. -/
structure Unordered where
  relation : Relation
  left : String
  right : String

def Unordered.message (u : Unordered) : String :=
  "'" ++ u.relation.symbol ++ "' not supported between instances of '" ++ u.left ++ "' and '"
    ++ u.right ++ "'"

/-- A number as it is compared: `mantissa * 2 ^ exponent`, without bounds, or no number at all. -/
inductive Magnitude
  | finite (mantissa exponent : Int)
  | infinite (positive : Bool)
  | undefined

namespace Magnitude

def ofFloat (x : Float) : Magnitude :=
  let bits := x.toBits
  let positive := bits >>> 63 == 0
  let size := bits &&& 0x7fffffffffffffff
  if size > 0x7ff0000000000000 then .undefined
  else if size == 0x7ff0000000000000 then .infinite positive
  else
    let binary := Decimal.Binary.ofBits size
    .finite (if positive then binary.mantissa else Int.neg binary.mantissa) binary.exponent

/-- The order of two numbers; what is undefined has none, not even with itself. -/
def order? : Magnitude → Magnitude → Option Ordering
  | .undefined, _ => none
  | _, .undefined => none
  | .infinite a, .infinite b => some (compare (cond a 1 0) (cond b 1 0))
  | .infinite a, .finite _ _ => some (if a then .gt else .lt)
  | .finite _ _, .infinite b => some (if b then .lt else .gt)
  | .finite m e, .finite n f =>
    let low := min e f
    some (compare (m * Int.pow 2 (e - low).toNat) (n * Int.pow 2 (f - low).toNat))

end Magnitude

namespace Value

/-- The name of a value's kind in messages. -/
def kind : Value → String
  | .null => "NoneType"
  | .bool _ => "bool"
  | .int _ => "int"
  | .float _ => "float"
  | .text _ => "str"
  | .list _ => "list"
  | .mapping _ => "dict"

def magnitude? : Value → Option Magnitude
  | .bool b => some (.finite (if b then 1 else 0) 0)
  | .int n => some (.finite n 0)
  | .float x => some (.ofFloat x)
  | _ => none

mutual

def equal : Value → Value → Bool
  | .null, .null => true
  | .text s, .text t => s == t
  | .list items, .list others => equalLists items others
  | .mapping items, .mapping others =>
    items.length == others.length && equalItems items others
  | v, w =>
    match v.magnitude?, w.magnitude? with
    | some m, some n => m.order? n == some .eq
    | _, _ => false

def equalLists : List Value → List Value → Bool
  | [], [] => true
  | item :: items, other :: others => equal item other && equalLists items others
  | _, _ => false

/-- Is every item found among the others? -/
def equalItems : List (Value × Value) → List (Value × Value) → Bool
  | [], _ => true
  | (key, item) :: items, others =>
    others.any (fun (otherKey, other) => equal key otherKey && equal item other)
      && equalItems items others

end

mutual

def related (relation : Relation) : Value → Value → Except Unordered Bool
  | .text s, .text t => .ok (relation.holds (RawText.compareCodePoints s t))
  | .list items, .list others => relatedLists relation items others
  | v, w =>
    match v.magnitude?, w.magnitude? with
    | some m, some n => .ok ((m.order? n).any relation.holds)
    | _, _ => .error ⟨relation, v.kind, w.kind⟩

/-- Where no items differ, the shorter list comes first. -/
def relatedLists (relation : Relation) : List Value → List Value → Except Unordered Bool
  | item :: items, other :: others =>
    if equal item other then relatedLists relation items others else related relation item other
  | items, others => .ok (relation.holds (compare items.length others.length))

end

end Value

end MemberOrder
