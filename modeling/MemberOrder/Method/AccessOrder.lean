import MemberOrder.Method.Access
import MemberOrder.Settings.Comparison

/-!
Comparing access levels with each other and with values of other kinds. Two levels are ordered by
how accessible they are; a level equals no value of another kind and has no order with it.
-/

set_option autoImplicit false

namespace MemberOrder

namespace Access

/-- Why a value names no access level: lists and mappings cannot be looked up at all. -/
inductive NameError
  | unknown (value : Value)
  | noName (kind : String)

/-- What is said of the value, where it can be shown. -/
def NameError.message? (limit : DigitLimit) : NameError → Option RawText
  | .unknown value => (value.shown? limit).map (.ofString "Unknown access level: " ++ ·)
  | .noName kind => some (.ofString ("unhashable type: '" ++ kind ++ "'"))

def ofValue : Value → Except NameError Access
  | .list _ => .error (.noName (Value.list []).kind)
  | .mapping _ => .error (.noName (Value.mapping []).kind)
  | value =>
    match value with
    | .text t =>
      match t.toText?.bind fun name => ofName? (String.ofList name) with
      | some level => .ok level
      | none => .error (.unknown value)
    | _ => .error (.unknown value)

/-- The description of a level, which names it in capitals. -/
def description (level : Access) : String := "AccessLevel." ++ level.name.toUpper

end Access

/-- What can stand on a side of a comparison. -/
inductive Comparand
  | level (a : Access)
  | value (v : Value)

namespace Comparand

def kind : Comparand → String
  | .level _ => "AccessLevel"
  | .value v => v.kind

def equal : Comparand → Comparand → Bool
  | .level a, .level b => a == b
  | .value v, .value w => v.equal w
  | _, _ => false

def related (relation : Relation) : Comparand → Comparand → Except Unordered Bool
  | .level a, .level b => .ok (relation.holds (compare a.rank b.rank))
  | .value v, .value w => v.related relation w
  | x, y => .error ⟨relation, x.kind, y.kind⟩

end Comparand

end MemberOrder
