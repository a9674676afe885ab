import MemberOrder.Method.Basic

/-!
Clusters: bringing methods together that belong together, overloads of one name or the getter and
setter of one field, at the place of the first of them.
-/

set_option autoImplicit false

namespace MemberOrder.Method

/-- Brings the methods of each name together, in order of first occurrence. -/
def clusterOverloads (methods : List Method) : List Method :=
  (methods.map (·.name)).eraseDups.flatMap fun name => methods.filter (·.name = name)

/-- Puts the first accessor that goes with a method directly behind it. -/
def clusterAccessors : List Method → List Method
  | [] => []
  | m :: rest =>
    match rest.find? fun other => m.partnerNames.contains other.name with
    | some partner =>
      m :: partner :: clusterAccessors
        (rest.eraseP fun other => m.partnerNames.contains other.name)
    | none => m :: clusterAccessors rest
termination_by methods => methods.length
decreasing_by
  · have := (List.eraseP_sublist
      (p := fun other : Method => m.partnerNames.contains other.name) (l := rest)).length_le
    simp only [List.length_cons]
    omega
  · simp

end MemberOrder.Method
