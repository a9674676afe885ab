import MemberOrder.Text.Case

/-!
The lexical order of names: by their case folded forms and, where these are equal, lower case
first. Collation refuses texts that hold U+0000.
-/

set_option autoImplicit false

namespace MemberOrder.Name

def compare (a b : Text) : Ordering :=
  (Text.compareCodePoints (Text.foldCase a) (Text.foldCase b)).then
    (Text.compareCodePoints (Text.swapCase a) (Text.swapCase b))

/-- Can the name be collated? -/
def collates (name : Text) : Bool := !name.contains '\x00'

/-- The order of two names, if both can be collated. -/
def collate? (a b : Text) : Option Ordering :=
  if collates a && collates b then some (compare a b) else none

end MemberOrder.Name
