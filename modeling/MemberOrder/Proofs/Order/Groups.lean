import Mathlib.Data.List.Lex
import MemberOrder.Proofs.Order.Comparison
import MemberOrder.Proofs.Order.Permutation

/-!
Groups come one after the other in every order, whatever calls say. A method belongs to a group by
being a constructor, by being static and by its access, as far as the options tell these apart.
Inside a group the comparison may contradict itself, between groups it does not; and sorting puts a
key in order that no answer of the comparison contradicts, though the answers fit no order of the
elements.
-/

set_option autoImplicit false

namespace MemberOrder

/-- Sorting by a comparison that never contradicts a key puts the key in order. -/
theorem pairwise_key_runSort {α κ : Type} [Preorder κ] {before : α → α → Bool} {key : α → κ}
    (hbefore : ∀ x y, before x y = true → key x ≤ key y)
    (hnot : ∀ x y, before y x = false → key x ≤ key y) (l : List α) :
    (runSort before l).Pairwise fun x y ↦ key x ≤ key y := by
  have htrans : Trans (fun x y ↦ key x ≤ key y) (fun x y ↦ key x ≤ key y)
      (fun x y : α ↦ key x ≤ key y) := ⟨le_trans⟩
  refine List.isChain_iff_pairwise.mp ((isChain_runSort before l).imp fun x y hxy ↦ ?_)
  rcases hxy with hbefore' | hnot'
  · exact hbefore x y hbefore'
  · exact hnot x y hnot'

namespace Options

variable (options : Options) (graph : CallGraph)

/-- The key of the group of a method: constructors first, then static methods, then by access, each
as far as the options tell these apart. Keys are in the order of their first difference. -/
def groupKey (m : Method) : List Nat :=
  (if options.separateConstructors then [if m.isConstructor then 0 else 1] else []) ++
    (if m.isStatic then 0 else 1) ::
      (if options.separateAccess then [m.access.rank] else [])

theorem isLE_compareFlags_then (a b : Bool) (rest : Ordering) {s t : List Nat}
    (h : rest.isLE = true ↔ s ≤ t) :
    ((compareFlags a b).then rest).isLE = true ↔
      (if a then 0 else 1) :: s ≤ (if b then 0 else 1) :: t := by
  rw [← not_lt] at h ⊢
  cases a <;> cases b <;> simp [compareFlags, List.cons_lt_cons_iff, h]

/-- Groups are compared by their keys. -/
theorem isLE_compareGroups_iff (a b : Method) :
    (options.compareGroups a b).isLE = true ↔ options.groupKey a ≤ options.groupKey b := by
  have haccess : (if options.separateAccess then compare a.access.rank b.access.rank
        else .eq).isLE = true ↔
      (if options.separateAccess then [a.access.rank] else []) ≤
        if options.separateAccess then [b.access.rank] else [] := by
    rw [← not_lt]
    split_ifs
    · simp [Nat.isLE_compare, List.cons_lt_cons_iff]
    · simp
  have hstatic := isLE_compareFlags_then a.isStatic b.isStatic _ haccess
  unfold compareGroups groupKey
  by_cases hconstructors : options.separateConstructors
  · simpa [hconstructors] using isLE_compareFlags_then a.isConstructor b.isConstructor _ hstatic
  · simpa [hconstructors] using hstatic

/-- What comes before a method is of a group before or of its own. -/
theorem groupKey_le_of_lt {a b : Method} (h : options.compareMethods graph a b = .lt) :
    options.groupKey a ≤ options.groupKey b := by
  rw [← isLE_compareGroups_iff]
  unfold compareMethods at h
  cases hgroups : options.compareGroups a b with
  | lt => rfl
  | eq => rfl
  | gt => simp [hgroups] at h

/-- What does not come before a method is of its group or of one behind. -/
theorem groupKey_le_of_ne_lt {a b : Method} (h : options.compareMethods graph b a ≠ .lt) :
    options.groupKey a ≤ options.groupKey b := by
  rw [← isLE_compareGroups_iff, ← compareGroups_swap]
  unfold compareMethods at h
  cases hgroups : options.compareGroups b a with
  | lt => simp [hgroups] at h
  | eq => rfl
  | gt => rfl

/-- An order without clusters goes from group to group, however the methods call each other: the
keys of their groups ascend along it. -/
theorem ordered?_groups_ascend (hplain : options.Unclustered) {methods : List Method}
    (hnames : ∀ m ∈ methods, Name.collates m.name = true) :
    ∃ order, options.ordered? methods = some order ∧ order.Perm methods ∧
      order.Pairwise fun a b ↦ options.groupKey a ≤ options.groupKey b := by
  have hordered := options.ordered?_of_collates hnames
  rw [hplain.clustered_eq] at hordered
  refine ⟨_, hordered, options.sorted_perm methods, ?_⟩
  refine pairwise_key_runSort (fun a b h ↦ ?_) (fun a b h ↦ ?_) methods
  · exact options.groupKey_le_of_lt _ (beq_iff_eq.mp h)
  · exact options.groupKey_le_of_ne_lt _ (beq_eq_false_iff_ne.mp h)

/-- A hundred methods of two names that call each other, and of several groups. -/
def entangledMethods : List Method :=
  (List.range 100).map fun i ↦
    { name := if i % 2 = 0 then ['e'] else ['o']
      signature := []
      access := if i % 4 < 2 then .publicAccess else .privateAccess
      isConstructor := false
      isStatic := i % 3 = 0
      isGetter := false
      isSetter := false
      leading := []
      text := []
      body := []
      calls := [['e'], ['o']]
      start := i
      stop := i + 1
      position := i }

theorem entangledMethods_groups_ascend :
    entangledMethods.length = 100 ∧
      (CallGraph.ofMethods entangledMethods).calls ['e'] ['o'] = true ∧
      (CallGraph.ofMethods entangledMethods).calls ['o'] ['e'] = true ∧
      ∃ order, default.ordered? entangledMethods = some order ∧ order.Perm entangledMethods ∧
        order.Pairwise fun a b ↦ default.groupKey a ≤ default.groupKey b := by
  refine ⟨rfl, by decide +kernel, by decide +kernel, ?_⟩
  exact ordered?_groups_ascend default (by decide) (by decide +kernel)

end Options

end MemberOrder
