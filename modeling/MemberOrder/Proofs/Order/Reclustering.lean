import MemberOrder.Proofs.Order.Accessors
import MemberOrder.Proofs.Order.Independence

/-!
Sorting and clustering done again. Where calls do not order methods, sorting is by an order of what
the methods are, and by their numbers where these are alike. A clustering pass takes methods out of
the order of the sort, and sorting them again takes some of them back; but methods among which a
pass chooses, the overloads of a name or the accessors that go with another, stand in the same order
before and after. So the pass makes the same choices again.
-/

set_option autoImplicit false

namespace MemberOrder

namespace Method

/-- The names that go with a method can be told from each of them. -/
theorem partnerNames_eq_of_mem {m : Method} {name : Text} (h : name ∈ m.partnerNames) :
    m.partnerNames = if setterWord.isPrefixOf name then [name]
      else [getterWord ++ getterField name, queryWord ++ getterField name] := by
  unfold partnerNames at h ⊢
  split_ifs at h ⊢ with hgetter hword hsetter hword
  · rw [List.mem_singleton.mp h]
  · rw [List.mem_singleton.mp h] at hword
    simp at hword
  · rcases List.mem_pair.mp h with rfl | rfl
    · simp [setterWord, getterWord] at hword
    · simp [setterWord, queryWord] at hword
  · rcases List.mem_pair.mp h with rfl | rfl
    · rw [getterField_getter]
    · rw [getterField_query]
  all_goals cases h

/-- The pass keeps the order of the methods that go with a given one. -/
theorem Pairs.filter_partners {m : Method} {methods order : List Method}
    (h : Pairs methods order) :
    order.filter (fun other ↦ m.partnerNames.contains other.name) =
      methods.filter fun other ↦ m.partnerNames.contains other.name := by
  refine h.filter_eq m.partnerNames.contains fun other _ name hname hkept third hthird ↦ ?_
  rw [List.contains_iff_mem] at hkept hthird
  rwa [partnerNames_eq_of_mem hname, ← partnerNames_eq_of_mem hkept]

/-- The numbers of methods do not matter for how they are numbered anew. -/
theorem renumbered_map_unnumbered (methods : List Method) :
    renumbered (methods.map unnumbered) = renumbered methods := by
  refine List.ext_getElem? fun i ↦ ?_
  rw [renumbered, renumbered, List.getElem?_mapIdx, List.getElem?_mapIdx, List.getElem?_map,
    Option.map_map]
  rfl

/-- The method numbered by its place in an order. -/
def placedIn (order : List Method) (m : Method) : Method := { m with position := order.idxOf m }

theorem map_placedIn {order : List Method} (h : order.Nodup) :
    order.map (placedIn order) = renumbered order := by
  refine List.ext_getElem (by simp [renumbered]) fun i hi _ ↦ ?_
  rw [List.length_map] at hi
  simp [renumbered, placedIn, h.idxOf_getElem i hi]

end Method

namespace Options

/-- Each of the methods comes before all that stand behind it. -/
def Ascending (options : Options) (graph : CallGraph) (methods : List Method) : Prop :=
  methods.Pairwise fun a b ↦ options.compareMethods graph a b = .lt

theorem sorted_nil (options : Options) : options.sorted [] = [] :=
  List.perm_nil.mp (options.sorted_perm [])

section WithoutCalls

variable {options : Options} (hcalls : options.callersFirst = false) {graph : CallGraph}

include hcalls

/-- Where calls do not order methods, no graph matters. -/
theorem compareKinds_graph (graph graph' : CallGraph) :
    options.compareKinds graph = options.compareKinds graph' := by
  rw [compareKinds_of_not_callersFirst hcalls, compareKinds_of_not_callersFirst hcalls]

theorem compareMethods_graph (graph graph' : CallGraph) :
    options.compareMethods graph = options.compareMethods graph' := by
  funext a b
  rw [compareMethods_eq, compareMethods_eq, compareKinds_graph hcalls graph graph']

theorem pairwise_isLE_sorted (graph : CallGraph) (methods : List Method) :
    (options.sorted methods).Pairwise fun a b ↦ (options.compareMethods graph a b).isLE = true := by
  have htrans := transCmp_compareMethods hcalls (CallGraph.ofMethods methods)
  rw [compareMethods_graph hcalls graph (CallGraph.ofMethods methods)]
  exact pairwise_isLE_runSort _ methods

/-- There is one way only to have methods ascend, and sorting finds it. -/
theorem Ascending.sorted_eq {methods order : List Method} (h : options.Ascending graph order)
    (hperm : order.Perm methods) : options.sorted methods = order := by
  have htrans := transCmp_compareMethods hcalls graph
  have hsymm : Std.Symm fun a b ↦ options.compareMethods graph a b ≠ .eq :=
    ⟨fun a b hab hba ↦ hab (Std.OrientedCmp.eq_comm.mp hba)⟩
  have hdistinct : order.Pairwise fun a b ↦ options.compareMethods graph a b ≠ .eq :=
    h.imp fun hab ↦ by simp [hab]
  have hle : order.Pairwise fun a b ↦ (options.compareMethods graph a b).isLE = true :=
    h.imp fun hab ↦ by simp [hab]
  have hperm' := (options.sorted_perm methods).trans hperm.symm
  refine hperm'.eq_of_pairwise ?_ (pairwise_isLE_sorted hcalls graph methods) hle
  intro a b ha hb hab hba
  by_contra hne
  exact hdistinct.forall (hperm'.mem_iff.mp ha) hb hne (Std.OrientedCmp.isLE_antisymm hab hba)

/-- Methods with numbers of their own ascend once they are sorted. -/
theorem ascending_sorted (graph : CallGraph) {methods : List Method}
    (hnumbers : (methods.map Method.position).Nodup) :
    options.Ascending graph (options.sorted methods) := by
  have hle := pairwise_isLE_sorted hcalls graph methods
  have hne : (options.sorted methods).Pairwise fun a b ↦ a.position ≠ b.position :=
    List.pairwise_map.mp (((options.sorted_perm methods).map _).nodup_iff.mpr hnumbers)
  refine (hle.and hne).imp fun {a b} hab ↦ ?_
  cases hcompare : options.compareMethods graph a b with
  | lt => rfl
  | eq => exact absurd (position_eq_of_compareMethods hcompare) hab.2
  | gt => simp [hcompare] at hab

theorem sorted_filter {methods : List Method} (hnumbers : (methods.map Method.position).Nodup)
    (keep : Method → Bool) :
    options.sorted (methods.filter keep) = (options.sorted methods).filter keep := by
  have hascending := ascending_sorted hcalls ⟨[]⟩ hnumbers
  have hkept : options.Ascending ⟨[]⟩ ((options.sorted methods).filter keep) :=
    List.Pairwise.filter keep hascending
  exact hkept.sorted_eq hcalls ((options.sorted_perm methods).filter keep)

end WithoutCalls

/-! ### The choices of a pass -/

/-- The methods are in order by what they are. -/
def KindsAscend (options : Options) (graph : CallGraph) (methods : List Method) : Prop :=
  methods.Pairwise fun a b ↦ (options.compareKinds graph a b).isLE = true

/-- The methods are numbered in the order in which they stand. -/
def Numbered (methods : List Method) : Prop :=
  methods.Pairwise fun a b ↦ a.position < b.position

theorem Numbered.nodup {methods : List Method} (h : Numbered methods) :
    (methods.map Method.position).Nodup :=
  List.pairwise_map.mpr (h.imp Nat.ne_of_lt)

theorem compareMethods_eq_lt {options : Options} {graph : CallGraph} {a b : Method}
    (hkinds : (options.compareKinds graph a b).isLE = true) (hnumbers : a.position < b.position) :
    options.compareMethods graph a b = .lt := by
  rw [compareMethods_eq, Ordering.then_eq_lt, Nat.compare_eq_lt]
  exact (Ordering.isLE_iff_eq_lt_or_eq_eq.mp hkinds).imp_right fun hsame ↦ ⟨hsame, hnumbers⟩

theorem KindsAscend.ascending {options : Options} {graph : CallGraph} {methods : List Method}
    (hkinds : options.KindsAscend graph methods) (hnumbers : Numbered methods) :
    options.Ascending graph methods :=
  (hkinds.and hnumbers).imp fun h ↦ compareMethods_eq_lt h.1 h.2

section WithoutCalls

variable {options : Options} (hcalls : options.callersFirst = false) {graph : CallGraph}

include hcalls

theorem kindsAscend_sorted (graph : CallGraph) (methods : List Method) :
    options.KindsAscend graph (options.sorted methods) := by
  refine (pairwise_isLE_sorted hcalls graph methods).imp fun {a b} hab ↦ ?_
  rw [compareMethods_eq] at hab
  exact Ordering.isLE_left_of_isLE_then hab

/-- Sorting leaves the first method in front, whatever a pass did with the others. -/
theorem sorted_cons_of_perm {m : Method} {rest order : List Method}
    (hkinds : options.KindsAscend graph (m :: rest)) (hperm : order.Perm rest)
    (hnumbers : Numbered (m :: order)) :
    options.sorted (m :: order) = m :: options.sorted order := by
  obtain ⟨hkinds, -⟩ := List.pairwise_cons.mp hkinds
  obtain ⟨hnumbers, hrest⟩ := List.pairwise_cons.mp hnumbers
  have hascending : options.Ascending graph (m :: options.sorted order) := by
    refine List.pairwise_cons.mpr ⟨fun other hother ↦ ?_, ?_⟩
    · have hmem := (options.sorted_perm order).mem_iff.mp hother
      exact compareMethods_eq_lt (hkinds other (hperm.mem_iff.mp hmem)) (hnumbers other hmem)
    · exact ascending_sorted hcalls graph (Numbered.nodup hrest)
  exact hascending.sorted_eq hcalls ((options.sorted_perm order).cons m)

/-- Methods of two kinds that are sorted together are sorted among themselves. -/
theorem filter_sorted_append (first : Method → Bool) {front back : List Method}
    (hnumbers : Numbered (front ++ back)) (hfront : ∀ m ∈ front, first m = true)
    (hback : ∀ m ∈ back, first m = false) :
    (options.sorted (front ++ back)).filter first = options.sorted front ∧
      ((options.sorted (front ++ back)).filter fun m ↦ !first m) = options.sorted back := by
  rw [← sorted_filter hcalls hnumbers.nodup, ← sorted_filter hcalls hnumbers.nodup,
    List.filter_append, List.filter_append]
  constructor
  · rw [List.filter_eq_self.mpr hfront, List.filter_eq_nil_iff.mpr (by simpa using hback),
      List.append_nil]
  · rw [List.filter_eq_nil_iff.mpr (by simpa using hfront),
      List.filter_eq_self.mpr (by simpa using hback), List.nil_append]

/-- The overloads of the first name are in the same order in the clustering and once it is sorted,
and so are those of the others. -/
theorem clusterOverloads_sorted {methods : List Method} (hkinds : options.KindsAscend graph methods)
    (hnumbers : Numbered (Method.clusterOverloads methods)) :
    Method.clusterOverloads (options.sorted (Method.clusterOverloads methods)) =
      Method.clusterOverloads methods := by
  induction methods using Method.overloads_induction with
  | nil => exact congrArg _ options.sorted_nil
  | cons m rest ih =>
    have hperm := Method.clusterOverloads_perm (m :: rest)
    rw [Method.clusterOverloads_cons, List.cons_append] at hnumbers hperm ⊢
    obtain ⟨-, hkindsRest⟩ := List.pairwise_cons.mp hkinds
    obtain ⟨-, hnumbersRest⟩ := List.pairwise_cons.mp hnumbers
    obtain ⟨hnumbersSame, hnumbersOthers, -⟩ := List.pairwise_append.mp hnumbersRest
    have hothers : ∀ other ∈ Method.clusterOverloads (rest.filter fun other ↦
        !decide (other.name = m.name)), decide (other.name = m.name) = false := by
      intro other hother
      simpa using (List.mem_filter.mp ((Method.clusterOverloads_perm _).mem_iff.mp hother)).2
    obtain ⟨hsame, hrest⟩ := filter_sorted_append hcalls (·.name = m.name) hnumbersRest
      (fun other hother ↦ (List.mem_filter.mp hother).2) hothers
    have hascending : options.Ascending graph (rest.filter (·.name = m.name)) :=
      KindsAscend.ascending (hkindsRest.filter _) hnumbersSame
    rw [sorted_cons_of_perm hcalls hkinds hperm.cons_inv hnumbers, Method.clusterOverloads_cons,
      hsame, hrest, hascending.sorted_eq hcalls (List.Perm.refl _),
      ih (hkindsRest.filter _) hnumbersOthers, List.cons_append]

/-- The accessors that go with a method are in the same order before the pass and once its result is
sorted, so that the first of them is chosen again. -/
theorem pairs_sorted {methods order : List Method} (h : Method.Pairs methods order)
    (hkinds : options.KindsAscend graph methods) (hnumbers : Numbered order) :
    Method.Pairs (options.sorted order) order := by
  induction h with
  | nil => exact options.sorted_nil.symm ▸ .nil
  | @pair m partner front back order hgoes hfront hrest ih =>
    have hperm := (Method.Pairs.pair hgoes hfront hrest).perm.cons_inv
    obtain ⟨-, hkindsRest⟩ := List.pairwise_cons.mp hkinds
    obtain ⟨-, hnumbersRest⟩ := List.pairwise_cons.mp hnumbers
    have hchoice : (partner :: order).filter (fun other ↦ m.partnerNames.contains other.name) =
        (front ++ partner :: back).filter fun other ↦ m.partnerNames.contains other.name := by
      rw [List.filter_cons_of_pos (by simpa using hgoes), hrest.filter_partners, List.filter_append,
        List.filter_append, List.filter_cons_of_pos (by simpa using hgoes),
        List.filter_eq_nil_iff.mpr (by simpa using hfront)]
      rfl
    have hascending : options.Ascending graph ((partner :: order).filter fun other ↦
        m.partnerNames.contains other.name) :=
      KindsAscend.ascending (hchoice ▸ hkindsRest.filter _) (hnumbersRest.filter _)
    have hsorted := sorted_filter hcalls (Numbered.nodup hnumbersRest) fun other ↦
      m.partnerNames.contains other.name
    rw [hascending.sorted_eq hcalls (List.Perm.refl _),
      List.filter_cons_of_pos (by simpa using hgoes)] at hsorted
    obtain ⟨front', back', hsplit, hfront', -, -⟩ := List.filter_eq_cons_iff.mp hsorted.symm
    -- Without the partner, what is left of the sorted methods is the sorted rest.
    have hrest' : options.sorted order = front' ++ back' := by
      have hall := ascending_sorted hcalls graph (Numbered.nodup hnumbersRest)
      have hperm' := options.sorted_perm (partner :: order)
      rw [hsplit] at hall hperm'
      have hleft : options.Ascending graph (front' ++ back') :=
        List.Pairwise.sublist ((List.sublist_cons_self partner back').append_left front') hall
      exact hleft.sorted_eq hcalls (List.perm_middle.symm.trans hperm').cons_inv
    rw [sorted_cons_of_perm hcalls hkinds hperm hnumbers, hsplit]
    refine .pair hgoes (by simpa using hfront') (hrest' ▸ ih ?_ ?_)
    · exact hkindsRest.sublist ((List.sublist_cons_self partner back).append_left front)
    · exact (List.pairwise_cons.mp hnumbersRest).2
  | @alone m rest order hnone hrest ih =>
    obtain ⟨-, hkindsRest⟩ := List.pairwise_cons.mp hkinds
    obtain ⟨-, hnumbersRest⟩ := List.pairwise_cons.mp hnumbers
    rw [sorted_cons_of_perm hcalls hkinds hrest.perm hnumbers]
    refine .alone (fun other hother ↦ hnone other ?_) (ih hkindsRest hnumbersRest)
    exact hrest.perm.mem_iff.mp ((options.sorted_perm order).mem_iff.mp hother)

end WithoutCalls

/-! ### Sorting and clustering again -/

/-- Methods can be numbered so that their clusters are numbered as they stand. -/
theorem exists_clustered_eq_renumbered (options : Options) (methods : List Method) :
    ∃ numbered : List Method,
      numbered.map Method.unnumbered = methods.map Method.unnumbered ∧
        options.clustered numbered = Method.renumbered (options.clustered methods) := by
  -- With numbers of their own the methods are distinct, so that each has one place in the clusters.
  let order := options.clustered (Method.renumbered methods)
  have hnodup : order.Nodup :=
    (options.clustered_perm _).nodup_iff.mpr (Method.nodup_renumbered methods)
  have hplaced : options.clustered ((Method.renumbered methods).map (Method.placedIn order)) =
      order.map (Method.placedIn order) :=
    options.clustered_map (f := Method.placedIn order) (fun _ ↦ rfl) (fun _ ↦ rfl) _
  have hsame : order.map Method.unnumbered = (options.clustered methods).map Method.unnumbered := by
    have hunnumbered := options.clustered_map (f := Method.unnumbered) (fun _ ↦ rfl) fun _ ↦ rfl
    rw [← hunnumbered, ← hunnumbered, Method.map_renumbered fun _ _ ↦ rfl]
  refine ⟨(Method.renumbered methods).map (Method.placedIn order), ?_, ?_⟩
  · rw [List.map_map]
    exact Method.map_renumbered (fun _ _ ↦ rfl) methods
  · rw [hplaced, Method.map_placedIn hnodup, ← Method.renumbered_map_unnumbered, hsame,
      Method.renumbered_map_unnumbered]

theorem numbered_renumbered (methods : List Method) : Numbered (Method.renumbered methods) := by
  have hrange : ((Method.renumbered methods).map Method.position).Pairwise (· < ·) := by
    rw [Method.map_position_renumbered]
    exact List.pairwise_lt_range
  exact List.pairwise_map.mp hrange

theorem KindsAscend.of_map_unnumbered {options : Options} {graph : CallGraph}
    {methods methods' : List Method} (h : options.KindsAscend graph methods)
    (hsame : methods'.map Method.unnumbered = methods.map Method.unnumbered) :
    options.KindsAscend graph methods' := by
  have hmapped : options.KindsAscend graph (methods.map Method.unnumbered) :=
    List.pairwise_map.mpr h
  rw [← hsame] at hmapped
  exact List.pairwise_map.mp hmapped

/-- With one of the two passes switched on, clustering is that pass. -/
theorem clustered_of_ne {options : Options}
    (h : options.clusterOverloads ≠ options.clusterAccessors) :
    options.clustered = Method.clusterOverloads ∨ options.clustered = Method.clusterAccessors := by
  cases hoverloads : options.clusterOverloads with
  | true =>
    have haccessors : options.clusterAccessors = false := by simpa [hoverloads] using h
    exact Or.inl (funext fun methods ↦ by simp [clustered, hoverloads, haccessors])
  | false =>
    have haccessors : options.clusterAccessors = true := by simpa [hoverloads] using h
    exact Or.inr (funext fun methods ↦ by simp [clustered, hoverloads, haccessors])

/-- Sorted and clustered in one of the two ways, methods that calls do not order stay: numbered as
they stand, they are put in the same order again. -/
theorem ordered?_repeats (options : Options) (hcalls : options.callersFirst = false)
    (hone : options.clusterOverloads ≠ options.clusterAccessors) {methods : List Method}
    (hnames : ∀ m ∈ methods, Name.collates m.name = true) :
    ∃ order, options.ordered? methods = some order ∧ order.Perm methods ∧
      options.ordered? (Method.renumbered order) = some (Method.renumbered order) := by
  have hordered := options.ordered?_of_collates hnames
  have hperm := perm_of_ordered? hordered
  refine ⟨_, hordered, hperm, ?_⟩
  rw [options.ordered?_of_collates (Method.collates_renumbered hperm hnames)]
  obtain ⟨numbered, hsame, hrenumbered⟩ :=
    options.exists_clustered_eq_renumbered (options.sorted methods)
  have hkinds : options.KindsAscend ⟨[]⟩ numbered :=
    (kindsAscend_sorted hcalls ⟨[]⟩ methods).of_map_unnumbered hsame
  have hnumbers : Numbered (options.clustered numbered) := hrenumbered ▸ numbered_renumbered _
  rw [← hrenumbered]
  refine congrArg some ?_
  rcases clustered_of_ne hone with hclustered | hclustered
  · rw [hclustered] at hnumbers ⊢
    exact clusterOverloads_sorted hcalls hkinds hnumbers
  · rw [hclustered] at hnumbers ⊢
    have hpairs := pairs_sorted hcalls (Method.pairs_clusterAccessors numbered) hkinds hnumbers
    exact hpairs.eq_clusterAccessors.symm

/-- A setter and a getter of different groups, and two overloads with a method between them. -/
def scatteredMethods : List Method :=
  [{ Method.bare (Method.setterWord ++ ['X']) [] 0 with
      access := .privateAccess, isSetter := true },
    { Method.bare ['f'] [] 1 with access := .privateAccess },
    .bare ['f'] [] 2,
    { Method.bare ['a'] [] 3 with access := .privateAccess },
    { Method.bare (Method.getterWord ++ ['X']) [] 4 with isStatic := true, isGetter := true }]

/-- Each pass takes a method out of its group, where the next sort puts it back. -/
theorem scatteredMethods_repeat :
    (∃ order,
      { withoutCalls with clusterOverloads := true }.ordered? scatteredMethods = some order ∧
      order.map Method.position = [4, 2, 1, 3, 0] ∧
      { withoutCalls with clusterOverloads := true }.ordered? (Method.renumbered order) =
        some (Method.renumbered order)) ∧
    ∃ order,
      { withoutCalls with clusterAccessors := true }.ordered? scatteredMethods = some order ∧
      order.map Method.position = [4, 0, 2, 3, 1] ∧
      { withoutCalls with clusterAccessors := true }.ordered? (Method.renumbered order) =
        some (Method.renumbered order) := by
  have hnames : ∀ m ∈ scatteredMethods, Name.collates m.name = true := by decide
  constructor
  · obtain ⟨order, horder, -, hagain⟩ :=
      ordered?_repeats { withoutCalls with clusterOverloads := true } rfl (by decide) hnames
    have hsome : ({ withoutCalls with clusterOverloads := true }.ordered? scatteredMethods).map
        (List.map Method.position) = some [4, 2, 1, 3, 0] := by
      decide +kernel
    rw [horder, Option.map_some, Option.some.injEq] at hsome
    exact ⟨order, horder, hsome, hagain⟩
  · obtain ⟨order, horder, -, hagain⟩ :=
      ordered?_repeats { withoutCalls with clusterAccessors := true } rfl (by decide) hnames
    have hsome : ({ withoutCalls with clusterAccessors := true }.ordered? scatteredMethods).map
        (List.map Method.position) = some [4, 0, 2, 3, 1] := by
      decide +kernel
    rw [horder, Option.map_some, Option.some.injEq] at hsome
    exact ⟨order, horder, hsome, hagain⟩

end Options

end MemberOrder
