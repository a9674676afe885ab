import MemberOrder.Order.CallGraph
import MemberOrder.Order.Name
import MemberOrder.Order.Options

/-!
The comparison of two methods. Constructors come first, then static methods, then the more
accessible ones; within such a group callers come before what they call, and what calls do not
order is in the order of names and at last of the source. The comparison need not be transitive.
-/

set_option autoImplicit false

namespace MemberOrder

/-- What holds comes before what does not. -/
def compareFlags (a b : Bool) : Ordering :=
  if a = b then .eq else if a then .lt else .gt

namespace Options

variable (options : Options) (graph : CallGraph)

/-- The order of the groups that two methods belong to. -/
def compareGroups (a b : Method) : Ordering :=
  (if options.separateConstructors then compareFlags a.isConstructor b.isConstructor else .eq).then
    ((compareFlags a.isStatic b.isStatic).then
      (if options.separateAccess then compare a.access.rank b.access.rank else .eq))

/-- Callers before callees, by direct calls and, depth first, by chains of calls. -/
def compareCalls (a b : Method) : Ordering :=
  if graph.calls a.name b.name then .lt
  else if graph.calls b.name a.name then .gt
  else if options.strategy = .depthFirst then
    if graph.reaches a.name b.name then .lt
    else if graph.reaches b.name a.name then .gt
    else .eq
  else .eq

def compareMethods (a b : Method) : Ordering :=
  (options.compareGroups a b).then
    ((if options.callersFirst then options.compareCalls graph a b else .eq).then
      ((if options.lexicalOrder then Name.compare a.name b.name else .eq).then
        (compare a.position b.position)))

/-- Can the methods be compared? Names that cannot be collated matter only where the comparison
comes down to them. -/
def comparable (a b : Method) : Bool :=
  !options.lexicalOrder || Name.collates a.name && Name.collates b.name
    || options.compareGroups a b != .eq
    || options.callersFirst && options.compareCalls graph a b != .eq

end Options

end MemberOrder
