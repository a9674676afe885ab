/-!
The options of an ordering: how far calls reach, and which rules apply.
-/

set_option autoImplicit false

namespace MemberOrder

/-- Do only direct calls order methods, or chains of calls too? -/
inductive Strategy
  | depthFirst
  | breadthFirst
deriving DecidableEq

namespace Strategy

def all : List Strategy := [.depthFirst, .breadthFirst]

def name : Strategy → String
  | .depthFirst => "depth-first"
  | .breadthFirst => "breadth-first"

def ofName? (name : String) : Option Strategy := all.find? (·.name == name)

end Strategy

/-- A rule that can be switched on and off. -/
inductive Rule
  | workingList
  | callersFirst
  | clusterOverloads
  | clusterAccessors
  | separateAccess
  | separateConstructors
  | lexicalOrder
deriving DecidableEq

namespace Rule

def all : List Rule :=
  [.workingList, .callersFirst, .clusterOverloads, .clusterAccessors, .separateAccess,
   .separateConstructors, .lexicalOrder]

def name : Rule → String
  | .workingList => "apply_working_list_heuristics"
  | .callersFirst => "respect_before_after_relation"
  | .clusterOverloads => "cluster_overloaded_methods"
  | .clusterAccessors => "cluster_getter_setter"
  | .separateAccess => "separate_by_access_level"
  | .separateConstructors => "separate_constructors"
  | .lexicalOrder => "apply_lexical_ordering"

def ofName? (name : String) : Option Rule := all.find? (·.name == name)

end Rule

structure Options where
  strategy : Strategy
  /-- No comparison consults this rule. -/
  workingList : Bool
  callersFirst : Bool
  clusterOverloads : Bool
  clusterAccessors : Bool
  separateAccess : Bool
  separateConstructors : Bool
  lexicalOrder : Bool
deriving DecidableEq

namespace Options

def default : Options :=
  { strategy := .depthFirst
    workingList := true
    callersFirst := true
    clusterOverloads := false
    clusterAccessors := false
    separateAccess := true
    separateConstructors := true
    lexicalOrder := true }

def applies (options : Options) : Rule → Bool
  | .workingList => options.workingList
  | .callersFirst => options.callersFirst
  | .clusterOverloads => options.clusterOverloads
  | .clusterAccessors => options.clusterAccessors
  | .separateAccess => options.separateAccess
  | .separateConstructors => options.separateConstructors
  | .lexicalOrder => options.lexicalOrder

def switch (options : Options) (rule : Rule) (on : Bool) : Options :=
  match rule with
  | .workingList => { options with workingList := on }
  | .callersFirst => { options with callersFirst := on }
  | .clusterOverloads => { options with clusterOverloads := on }
  | .clusterAccessors => { options with clusterAccessors := on }
  | .separateAccess => { options with separateAccess := on }
  | .separateConstructors => { options with separateConstructors := on }
  | .lexicalOrder => { options with lexicalOrder := on }

end Options

end MemberOrder
