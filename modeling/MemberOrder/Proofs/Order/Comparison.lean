import Mathlib.Data.List.Nodup
import MemberOrder.Order.Comparison
import MemberOrder.Proofs.Order.Calls

/-!
The comparison from both sides. Groups, names and places compare the other way round when two
methods trade sides; calls do so unless the methods call each other. So two methods come each before
the other exactly if they are entangled, of one group and ordered both ways by calls, and along a
graph without cycles none are. There the comparison is antisymmetric, and what calls decide is
reachability, which the direct calls never contradict.
-/

set_option autoImplicit false

namespace MemberOrder

namespace Text

theorem compareCodePoints_swap (a b : Text) :
    (compareCodePoints a b).swap = compareCodePoints b a := by
  fun_induction compareCodePoints a b with
  | case1 => rfl
  | case2 => rfl
  | case3 => rfl
  | case4 c rest d others ih =>
    rw [compareCodePoints, Ordering.swap_then, ih, Nat.compare_swap]

end Text

theorem Name.compare_swap (a b : Text) : (Name.compare a b).swap = Name.compare b a := by
  rw [Name.compare, Name.compare, Ordering.swap_then, Text.compareCodePoints_swap,
    Text.compareCodePoints_swap]

theorem compareFlags_swap (a b : Bool) : (compareFlags a b).swap = compareFlags b a := by
  cases a <;> cases b <;> rfl

namespace Options

variable (options : Options) (graph : CallGraph) (a b : Method)

theorem compareGroups_swap : (options.compareGroups a b).swap = options.compareGroups b a := by
  unfold compareGroups
  rw [Ordering.swap_then, Ordering.swap_then, compareFlags_swap]
  congr 1
  · split_ifs
    · exact compareFlags_swap _ _
    · rfl
  · congr 1
    split_ifs
    · exact Nat.compare_swap _ _
    · rfl

/-- The order of two methods up to their places. -/
def compareKinds : Ordering :=
  (options.compareGroups a b).then
    ((if options.callersFirst then options.compareCalls graph a b else .eq).then
      (if options.lexicalOrder then Name.compare a.name b.name else .eq))

theorem compareMethods_eq : options.compareMethods graph a b =
    (options.compareKinds graph a b).then (compare a.position b.position) := by
  unfold compareMethods compareKinds
  rw [Ordering.then_assoc, Ordering.then_assoc]

/-- Do calls order the two methods, which are of one group, both ways? -/
def Entangled : Prop :=
  options.callersFirst = true ∧ options.compareGroups a b = .eq ∧
    options.compareCalls graph a b = .lt ∧ options.compareCalls graph b a = .lt

instance : Decidable (options.Entangled graph a b) := inferInstanceAs (Decidable (_ ∧ _ ∧ _ ∧ _))

theorem compareCalls_swap (h : ¬ (options.compareCalls graph a b = .lt ∧
      options.compareCalls graph b a = .lt)) :
    (options.compareCalls graph a b).swap = options.compareCalls graph b a := by
  unfold compareCalls at h ⊢
  split_ifs at h ⊢ <;> simp_all

/-- Two methods that are not entangled compare the other way round when they trade sides. -/
theorem compareKinds_swap (h : ¬ options.Entangled graph a b) :
    (options.compareKinds graph a b).swap = options.compareKinds graph b a := by
  unfold compareKinds
  rw [Ordering.swap_then, compareGroups_swap]
  cases hgroups : options.compareGroups b a with
  | lt => rfl
  | gt => rfl
  | eq =>
    have hsame : options.compareGroups a b = .eq := by
      rw [← compareGroups_swap, hgroups]
      rfl
    have hcalls : (if options.callersFirst then options.compareCalls graph a b else .eq).swap =
        if options.callersFirst then options.compareCalls graph b a else .eq := by
      split_ifs with hcallers
      · exact options.compareCalls_swap graph a b fun hboth ↦ h ⟨hcallers, hsame, hboth⟩
      · rfl
    have hnames : (if options.lexicalOrder then Name.compare a.name b.name else .eq).swap =
        if options.lexicalOrder then Name.compare b.name a.name else .eq := by
      split_ifs
      · exact Name.compare_swap _ _
      · rfl
    rw [Ordering.swap_then, hcalls, hnames]

theorem compareMethods_swap (h : ¬ options.Entangled graph a b) :
    (options.compareMethods graph a b).swap = options.compareMethods graph b a := by
  rw [compareMethods_eq, compareMethods_eq, Ordering.swap_then, Nat.compare_swap,
    options.compareKinds_swap graph a b h]

theorem comparable_comm : options.comparable graph a b = options.comparable graph b a := by
  have hgroups : (options.compareGroups a b != .eq) = (options.compareGroups b a != .eq) := by
    rw [← compareGroups_swap]
    cases options.compareGroups b a <;> rfl
  have hcalls : (options.compareCalls graph a b != .eq) =
      (options.compareCalls graph b a != .eq) := by
    by_cases hboth : options.compareCalls graph a b = .lt ∧ options.compareCalls graph b a = .lt
    · rw [hboth.1, hboth.2]
    · rw [← options.compareCalls_swap graph a b hboth]
      cases options.compareCalls graph a b <;> rfl
  rw [comparable, comparable, hgroups, hcalls, Bool.and_comm (Name.collates a.name)]

/-- Two methods come each before the other exactly if they are entangled. -/
theorem entangled_iff : options.Entangled graph a b ↔
    options.compareMethods graph a b = .lt ∧ options.compareMethods graph b a = .lt := by
  constructor
  · rintro ⟨hcallers, hgroups, hthere, hback⟩
    have hgroups' : options.compareGroups b a = .eq := by
      rw [← compareGroups_swap, hgroups]
      rfl
    unfold compareMethods
    simp [hcallers, hgroups, hgroups', hthere, hback]
  · rintro ⟨hthere, hback⟩
    refine Decidable.byContradiction fun h ↦ ?_
    have hswap := options.compareMethods_swap graph a b h
    rw [hthere, hback] at hswap
    cases hswap

end Options

/-- No chain of calls leads from a name back to it. -/
def CallGraph.Acyclic (graph : CallGraph) : Prop := ∀ name, graph.reaches name name = false

/-- Calls that always go down in rank have no cycle. -/
theorem CallGraph.acyclic_of_rank {methods : List Method} (rank : Text → Nat)
    (h : ∀ m ∈ methods, ∀ callee ∈ m.calls, callee ∈ methods.map Method.name → callee ≠ m.name →
      rank callee < rank m.name) : (ofMethods methods).Acyclic := by
  have hfalls {x y : Text} (hcalls : (ofMethods methods).calls x y = true) : rank y < rank x := by
    obtain ⟨hne, hmem, m, hm, rfl, hcallee⟩ := (calls_ofMethods_iff methods x y).mp hcalls
    exact h m hm y hcallee hmem hne
  have hfalls' {x y : Text}
      (hchain : Relation.TransGen (fun a b ↦ (ofMethods methods).calls a b = true) x y) :
      rank y < rank x := by
    induction hchain with
    | single hcalls => exact hfalls hcalls
    | tail _ hcalls ih => exact Nat.lt_trans (hfalls hcalls) ih
  intro name
  refine Bool.eq_false_iff.mpr fun hreaches ↦ ?_
  exact Nat.lt_irrefl _ (hfalls' ((reaches_iff_transGen _ name name).mp hreaches))

namespace Options

/-- A method comes before another by calls only if a chain of calls leads to it. -/
theorem transGen_of_compareCalls {options : Options} {graph : CallGraph} {a b : Method}
    (h : options.compareCalls graph a b = .lt) :
    Relation.TransGen (fun x y ↦ graph.calls x y = true) a.name b.name := by
  unfold compareCalls at h
  split_ifs at h with hcalls hback hdepth hreaches
  · exact Relation.TransGen.single hcalls
  · exact (graph.reaches_iff_transGen _ _).mp hreaches

theorem not_entangled_of_acyclic (options : Options) {graph : CallGraph} (h : graph.Acyclic)
    (a b : Method) : ¬ options.Entangled graph a b := by
  rintro ⟨-, -, hthere, hback⟩
  have hcycle := (graph.reaches_iff_transGen a.name a.name).mpr
    ((transGen_of_compareCalls hthere).trans (transGen_of_compareCalls hback))
  rw [h a.name] at hcycle
  cases hcycle

/-! ### Calls without a cycle -/

section Acyclic

variable {options : Options} {graph : CallGraph} (hacyclic : graph.Acyclic)

include hacyclic

/-- Depth first, a method comes before another by calls exactly if a chain of calls leads to it: no
call back can be in the way. -/
theorem compareCalls_eq_lt_iff (hdepth : options.strategy = .depthFirst) (a b : Method) :
    options.compareCalls graph a b = .lt ↔
      Relation.TransGen (fun x y ↦ graph.calls x y = true) a.name b.name := by
  refine ⟨transGen_of_compareCalls, fun hchain ↦ ?_⟩
  have hback : graph.calls b.name a.name ≠ true := by
    intro hcalls
    have hcycle := (graph.reaches_iff_transGen a.name a.name).mpr (hchain.tail hcalls)
    rw [hacyclic a.name] at hcycle
    cases hcycle
  have hreaches := (graph.reaches_iff_transGen a.name b.name).mpr hchain
  unfold compareCalls
  rw [if_neg hback, if_pos hdepth, if_pos hreaches, ite_self]

theorem compareCalls_trans (hdepth : options.strategy = .depthFirst) {a b c : Method}
    (hab : options.compareCalls graph a b = .lt) (hbc : options.compareCalls graph b c = .lt) :
    options.compareCalls graph a c = .lt := by
  rw [compareCalls_eq_lt_iff hacyclic hdepth] at hab hbc ⊢
  exact hab.trans hbc

/-- A method compares as equal with itself. -/
theorem compareMethods_self (a : Method) : options.compareMethods graph a a = .eq := by
  have hswap := options.compareMethods_swap graph a a
    (options.not_entangled_of_acyclic hacyclic a a)
  cases h : options.compareMethods graph a a with
  | eq => rfl
  | lt => simp [h] at hswap
  | gt => simp [h] at hswap

end Acyclic

/-- What direct calls order, chains of calls order alike. -/
theorem compareCalls_depthFirst {options : Options} {graph : CallGraph} {a b : Method}
    (hbreadth : options.strategy = .breadthFirst) (h : options.compareCalls graph a b ≠ .eq) :
    { options with strategy := .depthFirst }.compareCalls graph a b =
      options.compareCalls graph a b := by
  unfold compareCalls at h ⊢
  by_cases hcalls : graph.calls a.name b.name = true
  · rw [if_pos hcalls, if_pos hcalls]
  · by_cases hback : graph.calls b.name a.name = true
    · rw [if_neg hcalls, if_neg hcalls, if_pos hback, if_pos hback]
    · simp [hcalls, hback, hbreadth] at h

/-- Only methods with the same number compare as equal. -/
theorem position_eq_of_compareMethods {options : Options} {graph : CallGraph} {a b : Method}
    (h : options.compareMethods graph a b = .eq) : a.position = b.position := by
  rw [compareMethods_eq, Ordering.then_eq_eq] at h
  exact Nat.compare_eq_eq.mp h.2

/-- The comparison of methods whose calls have no cycle, whatever the options are. Names can be
compared; trading sides turns the verdict round, and it is a draw for a method and itself only. Depth
first, what comes before a method by calls is what has a chain of calls to it, a transitive relation;
breadth first, calls say nothing else than depth first. -/
theorem compareMethods_antisymm (options : Options) {methods : List Method}
    (hpositions : (methods.map Method.position).Nodup)
    (hnames : ∀ m ∈ methods, Name.collates m.name = true)
    (hacyclic : (CallGraph.ofMethods methods).Acyclic) {a b : Method} (ha : a ∈ methods)
    (hb : b ∈ methods) :
    Name.collate? a.name b.name = some (Name.compare a.name b.name) ∧
      options.compareMethods (CallGraph.ofMethods methods) b a =
        (options.compareMethods (CallGraph.ofMethods methods) a b).swap ∧
      (options.compareMethods (CallGraph.ofMethods methods) a b = .eq ↔ a = b) ∧
      (options.strategy = .depthFirst →
        (options.compareCalls (CallGraph.ofMethods methods) a b = .lt ↔
          Relation.TransGen (fun x y ↦ (CallGraph.ofMethods methods).calls x y = true)
            a.name b.name) ∧
        ∀ c ∈ methods, options.compareCalls (CallGraph.ofMethods methods) a b = .lt →
          options.compareCalls (CallGraph.ofMethods methods) b c = .lt →
            options.compareCalls (CallGraph.ofMethods methods) a c = .lt) ∧
      (options.strategy = .breadthFirst →
        options.compareCalls (CallGraph.ofMethods methods) a b ≠ .eq →
          { options with strategy := .depthFirst }.compareCalls (CallGraph.ofMethods methods) a b =
            options.compareCalls (CallGraph.ofMethods methods) a b) := by
  refine ⟨?_, ?_, ⟨fun heq ↦ ?_, ?_⟩, fun hdepth ↦ ⟨?_, fun c _ hab hbc ↦ ?_⟩, ?_⟩
  · rw [Name.collate?, hnames a ha, hnames b hb]
    rfl
  · exact (options.compareMethods_swap _ a b
      (options.not_entangled_of_acyclic hacyclic a b)).symm
  · exact List.inj_on_of_nodup_map hpositions ha hb (position_eq_of_compareMethods heq)
  · rintro rfl
    exact compareMethods_self hacyclic a
  · exact compareCalls_eq_lt_iff hacyclic hdepth a b
  · exact compareCalls_trans hacyclic hdepth hab hbc
  · exact compareCalls_depthFirst

end Options

/-- A public method of which the name, the calls and the number matter. -/
def Method.bare (name : Text) (calls : List Text) (position : Nat) : Method :=
  { name, calls, position
    signature := name ++ ['(', ')']
    access := .publicAccess
    isConstructor := false
    isStatic := false
    isGetter := false
    isSetter := false
    leading := []
    text := []
    body := []
    start := position
    stop := position + 1 }

namespace Options

/-- Two overloads of one name, a method that one of them calls and one that calls them. -/
def overloadedMethods : List Method :=
  [.bare ['b'] [] 0, .bare ['a'] [] 1, .bare ['b'] [['a']] 2, .bare ['C'] [['b'], ['x']] 3]

/-- The caller reaches the last callee by the overload that calls it, and comes before it. -/
theorem overloadedMethods_antisymm :
    (CallGraph.ofMethods overloadedMethods).Acyclic ∧
      (CallGraph.ofMethods overloadedMethods).calls ['C'] ['a'] = false ∧
      default.compareMethods (CallGraph.ofMethods overloadedMethods) (.bare ['C'] [['b'], ['x']] 3)
        (.bare ['a'] [] 1) = .lt ∧
      default.compareMethods (CallGraph.ofMethods overloadedMethods) (.bare ['a'] [] 1)
        (.bare ['C'] [['b'], ['x']] 3) = .gt := by
  have hacyclic : (CallGraph.ofMethods overloadedMethods).Acyclic :=
    CallGraph.acyclic_of_rank (fun name ↦ (name.headD 'a').toLower.toNat) (by decide)
  obtain ⟨-, hswap, -, hdepth, -⟩ := default.compareMethods_antisymm (by decide) (by decide)
    hacyclic (a := .bare ['C'] [['b'], ['x']] 3) (b := .bare ['a'] [] 1) (by decide) (by decide)
  have hcalls := (hdepth rfl).1.mpr (Relation.TransGen.tail (b := ['b'])
    (Relation.TransGen.single (by decide)) (by decide))
  have hbefore : default.compareMethods (CallGraph.ofMethods overloadedMethods)
      (.bare ['C'] [['b'], ['x']] 3) (.bare ['a'] [] 1) = .lt := by
    unfold compareMethods
    rw [hcalls]
    rfl
  exact ⟨hacyclic, by decide, hbefore, hswap.trans (congrArg Ordering.swap hbefore)⟩

end Options

end MemberOrder
