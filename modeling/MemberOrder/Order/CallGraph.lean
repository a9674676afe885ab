import MemberOrder.Method.Basic

/-!
Call graphs over the method names of a class. Overloads share a node, and a name calls itself only
in a graph given by its edges. A name reaches another by one call or more.
-/

set_option autoImplicit false

namespace MemberOrder

/-- Each caller with the names it calls. -/
structure CallGraph where
  edges : List (Text × List Text)

namespace CallGraph

def callers (graph : CallGraph) : List Text := graph.edges.map (·.1)

def calleesOf (graph : CallGraph) (caller : Text) : List Text :=
  (graph.edges.lookup caller).getD []

/-- The calls among the methods of one class, those of a name to itself left out. -/
def ofMethods (methods : List Method) : CallGraph :=
  let names := (methods.map (·.name)).eraseDups
  ⟨names.map fun caller =>
    (caller, ((methods.filter (·.name = caller)).flatMap (·.calls)).filter fun callee =>
      names.contains callee && callee != caller)⟩

def calls (graph : CallGraph) (caller callee : Text) : Bool :=
  (graph.calleesOf caller).contains callee

/-- The callers that have not been visited. -/
def unvisited (graph : CallGraph) (visited : List Text) : List Text :=
  graph.callers.filter fun name => !visited.contains name

theorem unvisited_cons (graph : CallGraph) (visited : List Text) (name : Text) :
    graph.unvisited (name :: visited) =
      (graph.unvisited visited).filter fun other => decide (other ≠ name) := by
  unfold unvisited
  rw [List.filter_filter]
  congr 1
  funext other
  by_cases h : other = name <;> simp [h]

theorem length_unvisited_le (graph : CallGraph) (visited : List Text) (name : Text) :
    (graph.unvisited (name :: visited)).length ≤ (graph.unvisited visited).length := by
  rw [unvisited_cons]
  exact List.length_filter_le _ _

theorem mem_callers_of_calleesOf {graph : CallGraph} {name : Text}
    (h : graph.calleesOf name ≠ []) : name ∈ graph.callers := by
  unfold calleesOf at h
  cases hl : graph.edges.lookup name with
  | none => simp [hl] at h
  | some callees =>
    obtain ⟨before, after, heq, _⟩ := List.lookup_eq_some_iff.mp hl
    unfold callers
    rw [heq]
    simp

theorem length_unvisited_lt {graph : CallGraph} {visited : List Text} {name : Text}
    (hmem : name ∈ graph.callers) (hnew : visited.contains name = false) :
    (graph.unvisited (name :: visited)).length < (graph.unvisited visited).length := by
  rw [unvisited_cons]
  apply List.length_filter_lt_length_iff_exists.mpr
  exact ⟨name, List.mem_filter.mpr ⟨hmem, by simpa using hnew⟩, by simp⟩

/-- Looks for a caller of `target` among the pending names and all that they reach. -/
def search (graph : CallGraph) (target : Text) (visited : List Text) : List Text → Bool
  | [] => false
  | name :: pending =>
    if _h : visited.contains name then search graph target visited pending
    else
      let callees := graph.calleesOf name
      if callees.contains target then true
      else
        search graph target (name :: visited)
          (callees.filter (fun callee => !(name :: visited).contains callee) ++ pending)
termination_by pending => ((graph.unvisited visited).length, pending.length)
decreasing_by
  · exact Prod.Lex.right _ (Nat.lt_succ_self _)
  · simp only [Bool.not_eq_true] at _h
    by_cases hc : graph.calleesOf name = []
    · rcases Nat.lt_or_eq_of_le (graph.length_unvisited_le visited name) with hlt | heq
      · exact Prod.Lex.left _ _ hlt
      · rw [heq]
        apply Prod.Lex.right
        simp only [hc, List.filter_nil, List.nil_append]
        exact Nat.lt_succ_self _
    · exact Prod.Lex.left _ _ (length_unvisited_lt (mem_callers_of_calleesOf hc) _h)

/-- Does `caller` reach `callee` by one call or more? -/
def reaches (graph : CallGraph) (caller callee : Text) : Bool :=
  graph.search callee [] [caller]

end CallGraph

end MemberOrder
