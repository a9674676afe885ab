import MemberOrder.Layout.Assembly
import MemberOrder.Layout.Report
import MemberOrder.Order.Shuffle
import MemberOrder.Order.Sorting

/-!
Rearranging a source: sorting or shuffling the methods of its class. A source without a complete
class, or whose class has no methods, stays as it is.
-/

set_option autoImplicit false

namespace MemberOrder

/-- Why a source could not be rearranged. -/
inductive Fault
  | nullInName
  | indexOutOfRange
  | slotUnfilled
deriving DecidableEq

def Fault.message : Fault → String
  | .nullInName => "embedded null character"
  | .indexOutOfRange => "list index out of range"
  | .slotUnfilled => "a slot has no method"

namespace Rearrange

/-- The layout of a source that has methods to move. -/
def movable? (text : Text) : Option Layout :=
  (Reading.ofText text).layout?.filter fun layout => !layout.methods.isEmpty

/-- What looking for methods to move logs. -/
def log (text : Text) : List Log.Entry :=
  let reading := Reading.ofText text
  reading.log ++ match reading with
    | .complete layout =>
      if layout.methods.isEmpty then
        [⟨.debug, .sorting,
          "Class " ++ String.ofList layout.name ++ " has no methods to reorder"⟩]
      else []
    | _ => []

/-- The source with its methods in the given order. -/
def place (layout : Layout) (methods : List Method) : Except Fault Text :=
  match layout.assemble? methods with
  | some result => .ok result
  | none => .error .slotUnfilled

/-- Sorts the methods of a source. -/
def sort (options : Options) (text : Text) : Except Fault Text :=
  match movable? text with
  | none => .ok text
  | some layout =>
    match options.ordered? layout.methods with
    | none => .error .nullInName
    | some methods => place layout methods

/-- Shuffles the methods of a source, and gives what is left of the index source. -/
def shuffle (source : IndexSource) (text : Text) : Except Fault (Text × IndexSource) :=
  match movable? text with
  | none => .ok (text, source)
  | some layout =>
    match shuffle? source layout.methods with
    | none => .error .indexOutOfRange
    | some (methods, source) => (place layout methods).map fun result => (result, source)

end Rearrange

end MemberOrder
