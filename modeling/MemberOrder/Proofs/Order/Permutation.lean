import MemberOrder.Proofs.RunSort.Sorting
import MemberOrder.Order.Shuffle
import MemberOrder.Order.Sorting

/-!
Every order that methods are put in has each of them once. The comparison sort, both clustering
passes and the shuffle permute their list; the shuffle does so for every source of indexes that
are in range, and a seeded generator is one.
-/

set_option autoImplicit false

namespace MemberOrder

namespace Method

/-! ### Clusters -/

/-- The names other than a given one are those of the methods of other names. -/
theorem filter_names (name : Text) (methods : List Method) :
    (methods.map (·.name)).filter (fun other ↦ !other == name) =
      (methods.filter fun m ↦ !decide (m.name = name)).map (·.name) := by
  rw [List.filter_map]
  refine congrArg _ (List.filter_congr fun m _ ↦ ?_)
  by_cases hname : m.name = name <;> simp [hname]

/-- Clustering takes the overloads of the first method to its place and goes on with the others. -/
theorem clusterOverloads_cons (m : Method) (rest : List Method) :
    clusterOverloads (m :: rest) =
      m :: rest.filter (·.name = m.name) ++
        clusterOverloads (rest.filter fun other ↦ !decide (other.name = m.name)) := by
  unfold clusterOverloads
  rw [List.map_cons, List.eraseDups_cons, List.flatMap_cons, filter_names]
  congr 1
  · rw [List.filter_cons_of_pos (by simp)]
  · refine List.flatMap_congr fun name hname ↦ ?_
    obtain ⟨other, hother, rfl⟩ := List.mem_map.mp (List.mem_eraseDups.mp hname)
    have hne : other.name ≠ m.name := by simpa using (List.mem_filter.mp hother).2
    rw [List.filter_cons_of_neg (by simpa using fun h ↦ hne h.symm), List.filter_filter]
    refine List.filter_congr fun third _ ↦ ?_
    by_cases hthird : third.name = other.name
    · simp [hthird, hne]
    · simp [hthird]

/-- Induction along clustering, which after the first name goes on with the methods of others. -/
@[elab_as_elim]
theorem overloads_induction {motive : List Method → Prop} (nil : motive [])
    (cons : ∀ m rest, motive (rest.filter fun other ↦ !decide (other.name = m.name)) →
      motive (m :: rest)) (methods : List Method) : motive methods := by
  match methods with
  | [] => exact nil
  | m :: rest => exact cons m rest (overloads_induction nil cons _)
termination_by methods.length
decreasing_by
  exact Nat.lt_succ_of_le (List.length_filter_le _ _)

theorem clusterOverloads_perm (methods : List Method) :
    (clusterOverloads methods).Perm methods := by
  induction methods using overloads_induction with
  | nil => exact List.Perm.refl _
  | cons m rest ih =>
    rw [clusterOverloads_cons, List.cons_append]
    refine List.Perm.cons m ((ih.append_left _).trans ?_)
    exact List.filter_append_perm _ rest

/-- The order that the pass over accessors puts methods in, by what it does with the first one. -/
inductive Pairs : List Method → List Method → Prop
  | nil : Pairs [] []
  | pair {m partner : Method} {front back order : List Method}
      (hgoes : partner.name ∈ m.partnerNames)
      (hfront : ∀ other ∈ front, other.name ∉ m.partnerNames)
      (hrest : Pairs (front ++ back) order) :
      Pairs (m :: (front ++ partner :: back)) (m :: partner :: order)
  | alone {m : Method} {rest order : List Method}
      (hnone : ∀ other ∈ rest, other.name ∉ m.partnerNames) (hrest : Pairs rest order) :
      Pairs (m :: rest) (m :: order)

theorem pairs_clusterAccessors (methods : List Method) :
    Pairs methods (clusterAccessors methods) := by
  fun_induction clusterAccessors methods with
  | case1 => exact .nil
  | case2 m rest partner hpartner ih =>
    obtain ⟨hgoes, front, back, rfl, hfront⟩ := List.find?_eq_some_iff_append.mp hpartner
    have hfront' : ∀ other ∈ front, other.name ∉ m.partnerNames := by simpa using hfront
    rw [List.eraseP_append_right _ (by simpa using hfront'),
      List.eraseP_cons_of_pos (by simpa using hgoes)] at ih ⊢
    exact .pair (List.contains_iff_mem.mp hgoes) hfront' ih
  | case3 m rest hnone ih => exact .alone (by simpa using hnone) ih

theorem Pairs.perm {methods order : List Method} (h : Pairs methods order) :
    order.Perm methods := by
  induction h with
  | nil => exact List.Perm.refl _
  | pair _ _ _ ih => exact ((ih.cons _).trans List.perm_middle.symm).cons _
  | alone _ _ ih => exact ih.cons _

theorem clusterAccessors_perm (methods : List Method) :
    (clusterAccessors methods).Perm methods :=
  (pairs_clusterAccessors methods).perm

end Method

namespace Options

theorem sorted_perm (options : Options) (methods : List Method) :
    (options.sorted methods).Perm methods :=
  runSort_perm _ methods

theorem clustered_perm (options : Options) (methods : List Method) :
    (options.clustered methods).Perm methods := by
  unfold clustered
  simp only
  split_ifs
  · exact (Method.clusterAccessors_perm _).trans (Method.clusterOverloads_perm _)
  · exact Method.clusterAccessors_perm _
  · exact Method.clusterOverloads_perm _
  · exact List.Perm.refl _

/-- No clustering pass is switched on. -/
def Unclustered (options : Options) : Prop :=
  options.clusterOverloads = false ∧ options.clusterAccessors = false

instance (options : Options) : Decidable options.Unclustered := inferInstanceAs (Decidable (_ ∧ _))

theorem Unclustered.clustered_eq {options : Options} (h : options.Unclustered)
    (methods : List Method) : options.clustered methods = methods := by
  simp [clustered, h.1, h.2]

/-- Without clusters the order that the options ask for is the one of the comparison. -/
theorem Unclustered.ordered?_eq_some {options : Options} (h : options.Unclustered)
    {methods order : List Method} (horder : options.ordered? methods = some order) :
    order = options.sorted methods := by
  unfold ordered? at horder
  simp only at horder
  split_ifs at horder
  rw [h.clustered_eq, Option.some.injEq] at horder
  exact horder.symm

/-- Methods whose names can be collated have an order. -/
theorem ordered?_of_collates (options : Options) {methods : List Method}
    (h : ∀ m ∈ methods, Name.collates m.name = true) :
    options.ordered? methods = some (options.clustered (options.sorted methods)) := by
  refine if_pos (List.pairwise_of_forall_mem_list fun a ha b hb ↦ ?_)
  simp [comparable, h a ha, h b hb]

/-- The order that the options ask for has each method once. -/
theorem perm_of_ordered? {options : Options} {methods order : List Method}
    (h : options.ordered? methods = some order) : order.Perm methods := by
  unfold ordered? at h
  simp only at h
  split_ifs at h
  cases h
  exact (clustered_perm options _).trans (sorted_perm options methods)

end Options

/-- The default options, but going by direct calls only. -/
def breadthFirst : Options := { Options.default with strategy := .breadthFirst }

/-! ### Shuffles -/

namespace Random.Twister

theorem drawBelow_lt {bound : Nat} (hbound : 0 < bound) (bits tries : Nat) (twister : Twister) :
    (drawBelow bound bits tries twister).1 < bound := by
  induction tries generalizing twister with
  | zero => exact hbound
  | succ tries ih =>
    simp only [drawBelow]
    split_ifs with hvalue
    · exact hvalue
    · exact ih _

theorem below_lt {bound : Nat} (hbound : 0 < bound) (twister : Twister) :
    (twister.below bound).1 < bound :=
  drawBelow_lt hbound _ _ twister

end Random.Twister

namespace IndexSource

/-- The indexes that a shuffle draws from the source, for each place from `place` down to the
second, name one of the places up to it. -/
def InRange : Nat → IndexSource → Prop
  | 0, _ => True
  | place + 1, source =>
    0 ≤ (source.draw (place + 2)).1 ∧ (source.draw (place + 2)).1 < (place + 2 : Nat) ∧
      InRange place (source.draw (place + 2)).2

theorem inRange_seeded (twister : Random.Twister) (place : Nat) :
    InRange place (.seeded twister) := by
  induction place generalizing twister with
  | zero => trivial
  | succ place ih =>
    have hlt := Random.Twister.below_lt (Nat.succ_pos (place + 1)) twister
    simp only [InRange, draw]
    exact ⟨Int.natCast_nonneg _, Int.ofNat_lt.mpr hlt, ih _⟩

end IndexSource

namespace Shuffle

variable {α : Type}

theorem swap_perm (items : List α) (i j : Nat) : (swap items i j).Perm items := by
  unfold swap
  split
  · rename_i x y hx hy
    obtain ⟨hi, rfl⟩ := List.getElem?_eq_some_iff.mp hx
    obtain ⟨hj, rfl⟩ := List.getElem?_eq_some_iff.mp hy
    exact List.set_set_perm hi hj
  · exact List.Perm.refl _

theorem from?_perm {place : Nat} {source rest : IndexSource} {items order : List α}
    (h : from? place source items = some (order, rest)) : order.Perm items := by
  induction place generalizing source items with
  | zero =>
    cases h
    exact List.Perm.refl _
  | succ place ih =>
    obtain ⟨j, -, h⟩ := Option.bind_eq_some_iff.mp h
    exact (ih h).trans (swap_perm items (place + 1) j)

theorem position?_of_nonneg {size : Nat} {index : Int} (h : 0 ≤ index) (hlt : index < size) :
    position? size index = some index.toNat := by
  unfold position?
  simp only [if_neg (Int.not_lt.mpr h)]
  rw [if_pos ⟨h, hlt⟩]

theorem exists_from?_eq {place : Nat} {source : IndexSource} (items : List α)
    (hplace : place + 1 ≤ items.length ∨ place = 0) (h : source.InRange place) :
    ∃ order rest, from? place source items = some (order, rest) := by
  induction place generalizing source items with
  | zero => exact ⟨items, source, rfl⟩
  | succ place ih =>
    obtain ⟨hnonneg, hlt, hrest⟩ := h
    have hlength : place + 1 + 1 ≤ items.length := hplace.resolve_right (Nat.succ_ne_zero place)
    have hposition := position?_of_nonneg hnonneg
      (show (source.draw (place + 2)).1 < items.length by omega)
    have hswap := (swap_perm items (place + 1) (source.draw (place + 2)).1.toNat).length_eq
    obtain ⟨order, rest, heq⟩ := ih (swap items (place + 1) (source.draw (place + 2)).1.toNat)
      (Or.inl (by omega)) hrest
    refine ⟨order, rest, ?_⟩
    simp only [from?]
    rw [hposition, Option.bind_some, heq]

end Shuffle

/-- A shuffle that draws indexes in range gives the items in some order. -/
theorem exists_shuffle?_eq {α : Type} {source : IndexSource} {items : List α}
    (h : source.InRange (items.length - 1)) :
    ∃ order rest, shuffle? source items = some (order, rest) ∧ order.Perm items := by
  obtain ⟨order, rest, heq⟩ := Shuffle.exists_from?_eq items (by omega) h
  exact ⟨order, rest, heq, Shuffle.from?_perm heq⟩

end MemberOrder
