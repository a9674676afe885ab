import MemberOrder.Proofs.Order.Callers

/-!
Orders that do not depend on how the methods were written down. Where calls do not order methods,
the comparison is an order: groups, names and numbers are compared one after the other, each by an
order of its own. If no two methods are of one group and of one name, numbers never decide, and there
is one way only to put the methods in order; the clustering passes see nothing else than that.
-/

set_option autoImplicit false

namespace MemberOrder

/-- Sorting by an order puts every element before all that follow it, and not the neighbours
alone. -/
theorem pairwise_isLE_runSort {α : Type} (order : α → α → Ordering) [Std.TransCmp order]
    (l : List α) :
    (runSort (fun x y ↦ order x y == .lt) l).Pairwise fun x y ↦ (order x y).isLE = true := by
  have htrans : Trans (fun x y ↦ (order x y).isLE = true) (fun x y ↦ (order x y).isLE = true)
      (fun x y : α ↦ (order x y).isLE = true) := ⟨Std.TransCmp.isLE_trans⟩
  apply List.isChain_iff_pairwise.mp
  refine (isChain_runSort _ l).imp ?_
  intro x y hxy
  rcases hxy with hbefore | hnot
  · rw [beq_iff_eq.mp hbefore]
    rfl
  · have hswap : order x y = (order y x).swap := Std.OrientedCmp.eq_swap
    rw [hswap]
    cases hback : order y x with
    | lt => simp [hback] at hnot
    | eq => rfl
    | gt => rfl

/-- A rule that is switched off is no exception to an order. -/
theorem transCmp_ite {α : Type} {order : α → α → Ordering} (on : Bool) (h : Std.TransCmp order) :
    Std.TransCmp fun x y ↦ if on then order x y else .eq := by
  cases on with
  | false => exact { eq_swap := rfl, isLE_trans := fun _ _ ↦ rfl }
  | true => exact h

/-- Texts are in the order of their code points. -/
theorem Text.compareCodePoints_eq (a b : Text) :
    compareCodePoints a b = compare (a.map Char.toNat) (b.map Char.toNat) := by
  fun_induction compareCodePoints a b with
  | case1 => rfl
  | case2 => rfl
  | case3 => rfl
  | case4 c rest d others ih => rw [List.map_cons, List.map_cons, List.compare_cons_cons, ih]

theorem Name.compare_eq : Name.compare =
    compareLex (compareOn fun name ↦ (Text.foldCase name).map Char.toNat)
      (compareOn fun name ↦ (Text.swapCase name).map Char.toNat) := by
  funext a b
  rw [Name.compare, Text.compareCodePoints_eq, Text.compareCodePoints_eq]
  rfl

instance : Std.TransCmp Name.compare := by
  rw [Name.compare_eq]
  infer_instance

theorem compareFlags_eq (a b : Bool) : compareFlags a b = compare (!a) (!b) := by
  cases a <;> cases b <;> rfl

namespace Options

variable (options : Options)

theorem compareGroups_eq : options.compareGroups =
    compareLex
      (fun a b ↦ if options.separateConstructors then compareOn (!·.isConstructor) a b else .eq)
      (compareLex (compareOn (!·.isStatic))
        fun a b ↦ if options.separateAccess then compareOn (·.access.rank) a b else .eq) := by
  funext a b
  rw [compareGroups, compareFlags_eq, compareFlags_eq]
  rfl

instance : Std.TransCmp options.compareGroups := by
  have hconstructors : Std.TransCmp fun a b : Method ↦
      if options.separateConstructors then compareOn (!·.isConstructor) a b else .eq :=
    transCmp_ite _ inferInstance
  have haccess : Std.TransCmp fun a b : Method ↦
      if options.separateAccess then compareOn (·.access.rank) a b else .eq :=
    transCmp_ite _ inferInstance
  rw [compareGroups_eq]
  infer_instance

end Options

namespace Method

/-- Do two methods agree in all that tells groups apart, and are their names alike in the order of
names? -/
def Indistinct (a b : Method) : Prop :=
  a.isConstructor = b.isConstructor ∧ a.isStatic = b.isStatic ∧ a.access = b.access ∧
    Name.compare a.name b.name = .eq

instance (a b : Method) : Decidable (a.Indistinct b) := inferInstanceAs (Decidable (_ ∧ _ ∧ _ ∧ _))

theorem Indistinct.symm {a b : Method} (h : a.Indistinct b) : b.Indistinct a := by
  obtain ⟨hconstructor, hstatic, haccess, hname⟩ := h
  refine ⟨hconstructor.symm, hstatic.symm, haccess.symm, ?_⟩
  rw [← Name.compare_swap, hname]
  rfl

/-- The method without its number. -/
def unnumbered (m : Method) : Method := { m with position := 0 }

end Method

namespace Options

section WithoutCalls

variable {options : Options} (hcalls : options.callersFirst = false) (graph : CallGraph)

include hcalls

/-- Where calls do not order methods, nothing but groups and names is compared before numbers. -/
theorem compareKinds_of_not_callersFirst : options.compareKinds graph =
    compareLex options.compareGroups
      fun a b ↦ if options.lexicalOrder then Name.compare a.name b.name else .eq := by
  funext a b
  rw [compareKinds, hcalls]
  rfl

/-- Where calls do not order methods, the comparison is an order. -/
theorem transCmp_compareMethods : Std.TransCmp (options.compareMethods graph) := by
  have hnames : Std.TransCmp fun a b : Method ↦
      if options.lexicalOrder then Name.compare a.name b.name else .eq :=
    transCmp_ite _ (inferInstanceAs (Std.TransCmp (Ordering.byKey Method.name Name.compare)))
  have hkinds : Std.TransCmp (options.compareKinds graph) := by
    rw [compareKinds_of_not_callersFirst hcalls graph]
    infer_instance
  have hmethods : options.compareMethods graph =
      compareLex (options.compareKinds graph) (compareOn Method.position) := by
    funext a b
    exact options.compareMethods_eq graph a b
  rw [hmethods]
  infer_instance

variable (hlexical : options.lexicalOrder = true)
  (hconstructors : options.separateConstructors = true) (haccess : options.separateAccess = true)

include hlexical hconstructors haccess

/-- Methods that are not alike are told apart before their numbers are compared. -/
theorem compareKinds_ne_eq {a b : Method} (h : ¬ a.Indistinct b) :
    options.compareKinds graph a b ≠ .eq := by
  intro heq
  rw [compareKinds_of_not_callersFirst hcalls graph, compareLex, Ordering.then_eq_eq,
    ← sameGroup_iff, hlexical] at heq
  obtain ⟨⟨hconstructor, hstatic, haccess'⟩, hname⟩ := heq
  exact h ⟨hconstructor hconstructors, hstatic, haccess' haccess, hname⟩

variable {methods : List Method} (hdistinct : methods.Pairwise fun a b ↦ ¬ a.Indistinct b)

include hdistinct

/-- Sorted methods of which no two are alike stand in a strict order. -/
theorem pairwise_sorted : (options.sorted methods).Pairwise fun a b ↦
    options.compareKinds (CallGraph.ofMethods methods) a b = .lt := by
  have htrans := transCmp_compareMethods hcalls (CallGraph.ofMethods methods)
  have hle := pairwise_isLE_runSort (options.compareMethods (CallGraph.ofMethods methods)) methods
  have hne : (options.sorted methods).Pairwise fun a b ↦ ¬ a.Indistinct b :=
    ((options.sorted_perm methods).pairwise_iff fun h h' ↦ h h'.symm).mpr hdistinct
  refine (hle.and hne).imp ?_
  intro a b hab
  have hkinds := compareKinds_ne_eq hcalls (CallGraph.ofMethods methods) hlexical hconstructors
    haccess hab.2
  have hfirst := hab.1
  rw [compareMethods_eq] at hfirst
  cases h : options.compareKinds (CallGraph.ofMethods methods) a b with
  | lt => rfl
  | eq => exact absurd h hkinds
  | gt => simp [h] at hfirst

/-- However methods are written down of which no two are alike, they are sorted in one way. -/
theorem map_unnumbered_sorted {written : List Method} (hwritten : written.Perm methods) :
    (options.sorted (Method.renumbered written)).map Method.unnumbered =
      (options.sorted methods).map Method.unnumbered := by
  have hdistinct' : (Method.renumbered written).Pairwise fun a b ↦ ¬ a.Indistinct b := by
    have hmapped : ((Method.renumbered written).map Method.unnumbered).Pairwise
        fun a b ↦ ¬ a.Indistinct b := by
      rw [Method.map_renumbered fun _ _ ↦ rfl]
      exact List.pairwise_map.mpr
        ((hwritten.pairwise_iff fun h h' ↦ h h'.symm).mpr hdistinct)
    exact List.pairwise_map.mp hmapped
  have hthere : ((options.sorted methods).map Method.unnumbered).Pairwise fun a b ↦
      options.compareKinds (CallGraph.ofMethods methods) a b = .lt :=
    List.pairwise_map.mpr (pairwise_sorted hcalls hlexical hconstructors haccess hdistinct)
  have hhere : ((options.sorted (Method.renumbered written)).map Method.unnumbered).Pairwise
      fun a b ↦ options.compareKinds (CallGraph.ofMethods methods) a b = .lt := by
    rw [← options.compareKinds_congr (Method.perm_entries_renumbered hwritten)]
    exact List.pairwise_map.mpr
      (pairwise_sorted hcalls hlexical hconstructors haccess hdistinct')
  have hperm : ((options.sorted (Method.renumbered written)).map Method.unnumbered).Perm
      ((options.sorted methods).map Method.unnumbered) := by
    refine ((options.sorted_perm _).map _).trans ?_
    rw [Method.map_renumbered fun _ _ ↦ rfl]
    exact (hwritten.trans (options.sorted_perm methods).symm).map _
  refine hperm.eq_of_pairwise ?_ hhere hthere
  intro a b _ _ hab hba
  have hswap := options.compareKinds_swap (CallGraph.ofMethods methods) a b
    (not_entangled (.inl hcalls) a b)
  rw [hab, hba] at hswap
  cases hswap

end WithoutCalls

/-- Where calls do not order methods, every other rule applies and no two methods are alike, the
order has each method once and, with or without clusters, does not depend on how the methods are
written down and numbered; and without clusters each method comes before all that stand behind
it. -/
theorem ordered?_independent (options : Options) (hcalls : options.callersFirst = false)
    (hlexical : options.lexicalOrder = true) (hconstructors : options.separateConstructors = true)
    (haccess : options.separateAccess = true) {methods : List Method}
    (hnames : ∀ m ∈ methods, Name.collates m.name = true)
    (hdistinct : methods.Pairwise fun a b ↦ ¬ a.Indistinct b) :
    ∃ order, options.ordered? methods = some order ∧ order.Perm methods ∧
      (∀ written : List Method, written.Perm methods → ∃ order',
        options.ordered? (Method.renumbered written) = some order' ∧
          order'.map Method.unnumbered = order.map Method.unnumbered) ∧
      (options.Unclustered → order.Pairwise fun a b ↦
        options.compareMethods (CallGraph.ofMethods methods) a b = .lt) := by
  have hordered := options.ordered?_of_collates hnames
  refine ⟨_, hordered, perm_of_ordered? hordered, ?_, ?_⟩
  · intro written hwritten
    refine ⟨_, options.ordered?_of_collates (Method.collates_renumbered hwritten hnames), ?_⟩
    have hsorted := map_unnumbered_sorted hcalls hlexical hconstructors haccess hdistinct hwritten
    have hcluster := options.clustered_map (f := Method.unnumbered) (fun _ ↦ rfl) fun _ ↦ rfl
    rw [← hcluster, ← hcluster, hsorted]
  · intro hplain
    rw [hplain.clustered_eq]
    refine (pairwise_sorted hcalls hlexical hconstructors haccess hdistinct).imp ?_
    intro a b hab
    rw [compareMethods_eq, hab]
    rfl

/-- Names that differ in case only, and one name in two groups. -/
def variantMethods : List Method :=
  [.bare ['B'] [] 0, .bare ['a'] [['b']] 1, .bare ['b'] [['a']] 2,
    { Method.bare ['a'] [] 3 with isStatic := true }]

/-- The default options, but not going by calls. -/
def withoutCalls : Options := { default with callersFirst := false }

theorem variantMethods_independent :
    ∃ order, withoutCalls.ordered? variantMethods = some order ∧
      order.map Method.name = [['a'], ['a'], ['b'], ['B']] ∧
      (∀ written : List Method, written.Perm variantMethods → ∃ order',
        withoutCalls.ordered? (Method.renumbered written) = some order' ∧
          order'.map Method.unnumbered = order.map Method.unnumbered) ∧
      order.Pairwise fun a b ↦
        withoutCalls.compareMethods (CallGraph.ofMethods variantMethods) a b = .lt := by
  obtain ⟨order, horder, -, hwritten, hpairs⟩ := ordered?_independent withoutCalls rfl rfl rfl rfl
    (show ∀ m ∈ variantMethods, Name.collates m.name = true by decide) (by decide +kernel)
  have hsome : (withoutCalls.ordered? variantMethods).map (List.map Method.name) =
      some [['a'], ['a'], ['b'], ['B']] := by
    decide +kernel
  rw [horder, Option.map_some, Option.some.injEq] at hsome
  exact ⟨order, horder, hsome, hwritten, hpairs (by decide)⟩

end Options

end MemberOrder
