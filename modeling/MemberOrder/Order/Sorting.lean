import MemberOrder.Order.Cluster
import MemberOrder.Order.Comparison
import MemberOrder.RunSort.Basic

/-!
The order of methods that the options ask for: sorted by the comparison, then clustered.
-/

set_option autoImplicit false

namespace MemberOrder.Options

variable (options : Options)

/-- The methods sorted by the comparison alone. -/
def sorted (methods : List Method) : List Method :=
  let graph := CallGraph.ofMethods methods
  runSort (fun a b => options.compareMethods graph a b == .lt) methods

/-- The clustering passes that the options switch on, overloads first. -/
def clustered (methods : List Method) : List Method :=
  let methods := if options.clusterOverloads then Method.clusterOverloads methods else methods
  if options.clusterAccessors then Method.clusterAccessors methods else methods

/-- The methods in order. Gives nothing where two of them cannot be compared, also if the sort would
not come to compare these two. -/
def ordered? (methods : List Method) : Option (List Method) :=
  let graph := CallGraph.ofMethods methods
  if methods.Pairwise fun a b => options.comparable graph a b then
    some (options.clustered (options.sorted methods))
  else none

end MemberOrder.Options
