import MemberOrder.Proofs.Order.Comparison
import MemberOrder.Proofs.Order.Permutation
import MemberOrder.Proofs.RunSort.Naturality
import MemberOrder.Proofs.Splice.Pieces

/-!
Orders that are settled. An order is settled if its methods, numbered anew as they stand in it, are
put in the same order once more. The order of methods depends on what they are and how they are
numbered, and not on where they stand in a source. Without clusters an order is settled if no two
neighbours of it are entangled, and only then if no two methods are alike: a method comes before the
one it follows only where the two are entangled, and numbering the methods anew adds no such
place. So where calls go round in no cycle, or do not count, every order without clusters stays.
-/

set_option autoImplicit false

namespace MemberOrder

/-- Lists of the same elements, none of which look alike, are equal if they look alike. -/
theorem eq_of_perm_of_map_eq {α β : Type} {f : α → β} {l l' : List α} (hperm : l.Perm l')
    (hdistinct : (l'.map f).Nodup) (h : l.map f = l'.map f) : l = l' := by
  refine List.ext_getElem hperm.length_eq fun i hi hi' ↦ ?_
  have hlooks : f l[i] = f l'[i] := by
    simpa [hi, hi'] using congrArg (·[i]?) h
  exact List.inj_on_of_nodup_map hdistinct (hperm.mem_iff.mp (List.getElem_mem hi))
    (List.getElem_mem hi') hlooks

namespace Method

/-- The method wherever it stands, with its number. -/
def placeless (m : Method) : Method := { m with leading := m.shownLeading, start := 0, stop := 0 }

/-- The methods numbered as they stand in the list. -/
def renumbered (methods : List Method) : List Method :=
  methods.mapIdx fun place m ↦ { m with position := place }

section Mapped

variable {f : Method → Method} (hname : ∀ m, (f m).name = m.name)

include hname

/-- What leaves names alone goes through a clustering pass. -/
theorem clusterOverloads_map (methods : List Method) :
    clusterOverloads (methods.map f) = (clusterOverloads methods).map f := by
  have hnames : (methods.map f).map (·.name) = methods.map (·.name) := by
    rw [List.map_map]
    exact List.map_congr_left fun m _ ↦ hname m
  unfold clusterOverloads
  rw [List.map_flatMap, hnames]
  refine List.flatMap_congr fun name _ ↦ ?_
  rw [List.filter_map]
  refine congrArg _ (List.filter_congr fun m _ ↦ ?_)
  rw [Function.comp_apply, hname]

theorem clusterAccessors_map (hpartners : ∀ m, (f m).partnerNames = m.partnerNames)
    (methods : List Method) :
    clusterAccessors (methods.map f) = (clusterAccessors methods).map f := by
  have hgoes (m : Method) : (fun other ↦ (f m).partnerNames.contains other.name) ∘ f =
      fun other : Method ↦ m.partnerNames.contains other.name := by
    funext other
    rw [Function.comp_apply, hpartners, hname]
  fun_induction clusterAccessors methods with
  | case1 => simp [clusterAccessors]
  | case2 m rest partner hpartner ih =>
    rw [List.map_cons, clusterAccessors, List.find?_map, hgoes, hpartner]
    simp only [Option.map_some]
    rw [List.eraseP_map, hgoes, List.map_cons, List.map_cons, ← ih]
  | case3 m rest hnone ih =>
    rw [List.map_cons, clusterAccessors, List.find?_map, hgoes, hnone]
    simp only [Option.map_none]
    rw [List.map_cons, ← ih]

end Mapped

end Method

theorem CallGraph.ofMethods_map (methods : List Method) :
    ofMethods (methods.map Method.placeless) = ofMethods methods := by
  unfold ofMethods
  simp only [List.map_map, List.filter_map, List.flatMap_map]
  rfl

namespace Options

variable (options : Options)

theorem sorted_map (methods : List Method) :
    options.sorted (methods.map Method.placeless) =
      (options.sorted methods).map Method.placeless := by
  unfold sorted
  rw [CallGraph.ofMethods_map]
  exact runSort_map (fun _ _ ↦ rfl) methods

theorem clustered_map {f : Method → Method} (hname : ∀ m, (f m).name = m.name)
    (hpartners : ∀ m, (f m).partnerNames = m.partnerNames) (methods : List Method) :
    options.clustered (methods.map f) = (options.clustered methods).map f := by
  unfold clustered
  simp only
  split_ifs
  · rw [Method.clusterOverloads_map hname, Method.clusterAccessors_map hname hpartners]
  · exact Method.clusterAccessors_map hname hpartners methods
  · exact Method.clusterOverloads_map hname methods
  · rfl

theorem ordered?_map (methods : List Method) :
    options.ordered? (methods.map Method.placeless) =
      (options.ordered? methods).map (List.map Method.placeless) := by
  have hcomparable : ((methods.map Method.placeless).Pairwise fun a b ↦
      options.comparable (CallGraph.ofMethods (methods.map Method.placeless)) a b = true) ↔
        methods.Pairwise fun a b ↦ options.comparable (CallGraph.ofMethods methods) a b = true := by
    rw [CallGraph.ofMethods_map, List.pairwise_map]
    rfl
  unfold ordered?
  simp only [hcomparable]
  split_ifs
  · rw [sorted_map, options.clustered_map (f := Method.placeless) (fun _ ↦ rfl) fun _ ↦ rfl]
    rfl
  · rfl

/-- What the methods of an order are depends on what the methods to be ordered are and how they are
numbered. -/
theorem map_essence_ordered?_congr {methods methods' : List Method}
    (h : methods.map Method.placeless = methods'.map Method.placeless) :
    (options.ordered? methods).map (List.map Method.essence) =
      (options.ordered? methods').map (List.map Method.essence) := by
  have hplaceless : (options.ordered? methods).map (List.map Method.placeless) =
      (options.ordered? methods').map (List.map Method.placeless) := by
    rw [← ordered?_map, h, ordered?_map]
  have hessence (order : Option (List Method)) : order.map (List.map Method.essence) =
      (order.map (List.map Method.placeless)).map (List.map fun m ↦ { m with position := 0 }) := by
    rw [Option.map_map]
    congr 1
    funext order
    rw [Function.comp_apply, List.map_map]
    rfl
  rw [hessence, hplaceless, ← hessence]

/-- The order, numbered anew, is put in the same order once more. -/
def Settled (order : List Method) : Prop :=
  (options.ordered? (Method.renumbered order)).map (List.map Method.essence) =
    some (order.map Method.essence)

instance (order : List Method) : Decidable (options.Settled order) :=
  inferInstanceAs (Decidable (_ = _))

end Options

namespace Method

/-- Methods that are numbered in order are placeless as the same methods renumbered are. -/
theorem map_placeless_renumbered {methods order : List Method}
    (hessence : methods.map essence = order.map essence)
    (hposition : methods.map position = List.range methods.length) :
    methods.map placeless = (renumbered order).map placeless := by
  refine List.ext_getElem? fun i ↦ ?_
  have hsame := congrArg (·[i]?) hessence
  have hplace := congrArg (·[i]?) hposition
  simp only [List.getElem?_map] at hsame hplace
  rw [renumbered, List.getElem?_map, List.getElem?_map, List.getElem?_mapIdx]
  cases hm : methods[i]? with
  | none =>
    rw [hm, Option.map_none] at hsame
    rw [Option.map_eq_none_iff.mp hsame.symm]
    rfl
  | some m =>
    have hlt : i < methods.length := (List.getElem?_eq_some_iff.mp hm).1
    rw [hm, Option.map_some] at hsame hplace
    rw [List.getElem?_range hlt, Option.some.injEq] at hplace
    obtain ⟨m', hm', hessence'⟩ := Option.map_eq_some_iff.mp hsame.symm
    rw [hm', ← hplace]
    exact congrArg (fun found : Method ↦ some { found with position := m.position }) hessence'.symm

theorem map_position_renumbered (methods : List Method) :
    (renumbered methods).map position = List.range methods.length := by
  refine List.ext_getElem (by simp [renumbered]) fun i hi hi' ↦ ?_
  simp [renumbered]

theorem nodup_renumbered (methods : List Method) : (renumbered methods).Nodup := by
  refine List.Nodup.of_map position ?_
  rw [map_position_renumbered]
  exact List.nodup_range

/-- What does not depend on numbers stays when methods are renumbered. -/
theorem map_renumbered {α : Type} {f : Method → α}
    (h : ∀ (m : Method) (place : Nat), f { m with position := place } = f m)
    (methods : List Method) : (renumbered methods).map f = methods.map f := by
  refine List.ext_getElem? fun i ↦ ?_
  rw [renumbered, List.getElem?_map, List.getElem?_mapIdx, List.getElem?_map, Option.map_map]
  congr 1
  funext m
  exact h m i

/-- Written down in another order, names can be collated as before. -/
theorem collates_renumbered {written methods : List Method} (h : written.Perm methods)
    (hnames : ∀ m ∈ methods, Name.collates m.name = true) :
    ∀ m ∈ renumbered written, Name.collates m.name = true := by
  intro m hm
  obtain ⟨i, hi, rfl⟩ := List.mem_mapIdx.mp hm
  exact hnames written[i] (h.mem_iff.mp (List.getElem_mem hi))

/-- Written down in another order, the methods have the same names and calls. -/
theorem perm_entries_renumbered {written methods : List Method} (h : written.Perm methods) :
    ((renumbered written).map fun m ↦ (m.name, m.calls)).Perm
      (methods.map fun m ↦ (m.name, m.calls)) := by
  rw [map_renumbered (fun _ _ ↦ rfl)]
  exact h.map _

end Method

namespace Options

variable (options : Options)

/-- Of two neighbours of a sorted list the second comes before the first only if they are
entangled. -/
theorem isChain_sorted (methods : List Method) :
    (options.sorted methods).IsChain fun a b ↦
      options.compareMethods (CallGraph.ofMethods methods) b a = .lt →
        options.Entangled (CallGraph.ofMethods methods) a b := by
  refine (isChain_runSort _ methods).imp fun a b hab hback ↦ ?_
  rcases hab with hthere | hnot
  · exact (options.entangled_iff _ a b).mpr ⟨beq_iff_eq.mp hthere, hback⟩
  · simp [hback] at hnot

theorem compareKinds_congr {methods methods' : List Method}
    (h : (methods.map fun m ↦ (m.name, m.calls)).Perm (methods'.map fun m ↦ (m.name, m.calls))) :
    options.compareKinds (CallGraph.ofMethods methods) =
      options.compareKinds (CallGraph.ofMethods methods') := by
  funext a b
  unfold compareKinds compareCalls
  rw [CallGraph.calls_congr h, CallGraph.reaches_congr h]

theorem comparable_congr {methods methods' : List Method}
    (h : (methods.map fun m ↦ (m.name, m.calls)).Perm (methods'.map fun m ↦ (m.name, m.calls))) :
    options.comparable (CallGraph.ofMethods methods) =
      options.comparable (CallGraph.ofMethods methods') := by
  funext a b
  unfold comparable compareCalls
  rw [CallGraph.calls_congr h, CallGraph.reaches_congr h]

/-- A method with the next number comes before its predecessor only by what it is. -/
theorem compareMethods_next_eq_lt_iff (graph : CallGraph) (a b : Method) (i : Nat) :
    options.compareMethods graph { b with position := i + 1 } { a with position := i } = .lt ↔
      options.compareKinds graph b a = .lt := by
  have hnext : compare (i + 1) i = .gt := Nat.compare_eq_gt.mpr (Nat.lt_succ_self i)
  rw [compareMethods_eq]
  change (options.compareKinds graph b a).then (compare (i + 1) i) = .lt ↔ _
  rw [hnext]
  cases options.compareKinds graph b a <;> decide

/-- Along methods numbered as they stand none comes before the one it follows exactly if none does
so by what it is. -/
theorem isChain_renumbered_iff (graph : CallGraph) (order : List Method) :
    ((Method.renumbered order).IsChain fun a b ↦
      (options.compareMethods graph b a == .lt) = false) ↔
      order.IsChain fun a b ↦ options.compareKinds graph b a ≠ .lt := by
  rw [List.isChain_iff_getElem, List.isChain_iff_getElem]
  have hlength : (Method.renumbered order).length = order.length := List.length_mapIdx
  have hstep (i : Nat) (hi : i + 1 < order.length) :
      (options.compareMethods graph { order[i + 1] with position := i + 1 }
          { order[i] with position := i } == .lt) = false ↔
        options.compareKinds graph order[i + 1] order[i] ≠ .lt := by
    rw [beq_eq_false_iff_ne, Ne, compareMethods_next_eq_lt_iff]
  constructor
  · intro h i hi
    have hi' := h i (hlength ▸ hi)
    simp only [Method.renumbered, List.getElem_mapIdx] at hi'
    exact (hstep i hi).mp hi'
  · intro h i hi
    rw [hlength] at hi
    simp only [Method.renumbered, List.getElem_mapIdx]
    exact (hstep i hi).mpr (h i hi)

/-- Methods numbered as they stand are sorted exactly if none comes before the one it follows by
what it is. -/
theorem sorted_renumbered_eq_self_iff (order : List Method) :
    options.sorted (Method.renumbered order) = Method.renumbered order ↔
      order.IsChain fun a b ↦ options.compareKinds (CallGraph.ofMethods order) b a ≠ .lt := by
  have hentries := Method.perm_entries_renumbered (List.Perm.refl order)
  unfold sorted
  rw [runSort_eq_self_iff _ (Method.nodup_renumbered order), isChain_renumbered_iff,
    options.compareKinds_congr hentries]

section Unclustered

variable {options : Options} (hplain : options.Unclustered) {methods order : List Method}
  (horder : options.ordered? methods = some order)

include hplain horder

theorem ordered?_renumbered :
    options.ordered? (Method.renumbered order) =
      some (options.sorted (Method.renumbered order)) := by
  have hperm := perm_of_ordered? horder
  unfold ordered? at horder ⊢
  simp only at horder ⊢
  split_ifs at horder with hcomparable
  rw [hplain.clustered_eq, options.comparable_congr (Method.perm_entries_renumbered hperm), if_pos]
  -- Neither the numbers of the methods nor their order matters to whether they can be compared.
  have hnumbers := Method.map_renumbered (f := Method.essence) (fun _ _ ↦ rfl) order
  have hessence (l : List Method) : (l.map Method.essence).Pairwise (fun a b ↦
      options.comparable (CallGraph.ofMethods methods) a b = true) ↔
        l.Pairwise fun a b ↦ options.comparable (CallGraph.ofMethods methods) a b = true :=
    List.pairwise_map
  rw [← hessence, hnumbers, hessence, hperm.pairwise_iff fun h ↦ ?_]
  · exact hcomparable
  · rw [options.comparable_comm]
    exact h

/-- In an order without clusters a method comes before the one it follows, by what it is, exactly if
the two are entangled. -/
theorem isChain_compareKinds_iff :
    (order.IsChain fun a b ↦ options.compareKinds (CallGraph.ofMethods order) b a ≠ .lt) ↔
      order.IsChain fun a b ↦ ¬ options.Entangled (CallGraph.ofMethods methods) a b := by
  have hentries := (perm_of_ordered? horder).map fun m ↦ (m.name, m.calls)
  have hsorted := options.isChain_sorted methods
  rw [← hplain.ordered?_eq_some horder] at hsorted
  rw [options.compareKinds_congr hentries, List.isChain_iff_getElem, List.isChain_iff_getElem]
  rw [List.isChain_iff_getElem] at hsorted
  refine forall₂_congr fun i hi ↦ not_congr ⟨fun hkinds ↦ hsorted i hi ?_, fun hentangled ↦ ?_⟩
  · rw [compareMethods_eq, hkinds]
    rfl
  · obtain ⟨hcallers, hgroups, hthere, hback⟩ := hentangled
    rw [compareKinds, ← compareGroups_swap, hgroups, hcallers, if_pos rfl, hback]
    rfl

/-- Without clusters an order in which no two neighbours are entangled is settled. -/
theorem settled_of_isChain
    (h : order.IsChain fun a b ↦ ¬ options.Entangled (CallGraph.ofMethods methods) a b) :
    options.Settled order := by
  have hsorted := (options.sorted_renumbered_eq_self_iff order).mpr
    ((isChain_compareKinds_iff hplain horder).mpr h)
  rw [Settled, ordered?_renumbered hplain horder, hsorted, Option.map_some,
    Method.map_renumbered (fun _ _ ↦ rfl)]

/-- Without clusters, and if no two methods are alike, an order is settled exactly if no two
neighbours are entangled. -/
theorem settled_iff_isChain (hdistinct : (methods.map Method.essence).Nodup) :
    options.Settled order ↔
      order.IsChain fun a b ↦ ¬ options.Entangled (CallGraph.ofMethods methods) a b := by
  refine ⟨fun hsettled ↦ ?_, settled_of_isChain hplain horder⟩
  rw [Settled, ordered?_renumbered hplain horder, Option.map_some, Option.some.injEq,
    ← Method.map_renumbered (fun _ _ ↦ rfl) order] at hsettled
  have hdistinct' : ((Method.renumbered order).map Method.essence).Nodup := by
    rw [Method.map_renumbered (fun _ _ ↦ rfl), ((perm_of_ordered? horder).map _).nodup_iff]
    exact hdistinct
  rw [← isChain_compareKinds_iff hplain horder, ← sorted_renumbered_eq_self_iff]
  exact eq_of_perm_of_map_eq (options.sorted_perm _) hdistinct' hsettled

end Unclustered

/-- Where calls do not order methods, or have no cycle, no two methods are entangled. -/
theorem not_entangled {options : Options} {graph : CallGraph}
    (h : options.callersFirst = false ∨ graph.Acyclic) (a b : Method) :
    ¬ options.Entangled graph a b := by
  rcases h with hoff | hacyclic
  · rintro ⟨hon, -⟩
    rw [hoff] at hon
    cases hon
  · exact options.not_entangled_of_acyclic hacyclic a b

/-- An order without clusters, of methods that calls do not order or order without a cycle. However
many methods there are, none comes before its predecessor in the order; and the order is sorted: its
methods, numbered as they stand in it, are put in the same order again. -/
theorem ordered?_stays (options : Options) (hplain : options.Unclustered) {methods : List Method}
    (hnames : ∀ m ∈ methods, Name.collates m.name = true)
    (hcalls : options.callersFirst = false ∨ (CallGraph.ofMethods methods).Acyclic) :
    ∃ order, options.ordered? methods = some order ∧ order.Perm methods ∧
      (order.IsChain fun a b ↦
        options.compareMethods (CallGraph.ofMethods methods) b a ≠ .lt) ∧
      options.ordered? (Method.renumbered order) = some (Method.renumbered order) := by
  have hordered := options.ordered?_of_collates hnames
  rw [hplain.clustered_eq] at hordered
  have hneighbours : (options.sorted methods).IsChain fun a b ↦
      ¬ options.Entangled (CallGraph.ofMethods methods) a b :=
    (options.isChain_sorted methods).imp fun a b _ ↦ not_entangled hcalls a b
  refine ⟨_, hordered, options.sorted_perm methods, ?_, ?_⟩
  · exact (options.isChain_sorted methods).imp fun a b hentangled hback ↦
      not_entangled hcalls a b (hentangled hback)
  · rw [ordered?_renumbered hplain hordered]
    refine congrArg some ((options.sorted_renumbered_eq_self_iff _).mpr ?_)
    exact (isChain_compareKinds_iff hplain hordered).mpr hneighbours

/-- A hundred methods, each of which calls the one before it, in the order of their names. -/
def callLadder : List Method :=
  (List.range 100).map fun i ↦ .bare [Char.ofNat (256 + i)] [[Char.ofNat (255 + i)]] i

theorem callLadder_stays :
    callLadder.length = 100 ∧ (CallGraph.ofMethods callLadder).Acyclic ∧
      ∃ order, breadthFirst.ordered? callLadder = some order ∧ order.Perm callLadder ∧
        (order.IsChain fun a b ↦
          breadthFirst.compareMethods (CallGraph.ofMethods callLadder) b a ≠ .lt) ∧
        breadthFirst.ordered? (Method.renumbered order) = some (Method.renumbered order) := by
  have hacyclic : (CallGraph.ofMethods callLadder).Acyclic :=
    CallGraph.acyclic_of_rank (fun name ↦ (name.headD 'a').toNat) (by decide +kernel)
  exact ⟨rfl, hacyclic, ordered?_stays breadthFirst (by decide) (by decide +kernel) (.inr hacyclic)⟩

end Options

end MemberOrder
