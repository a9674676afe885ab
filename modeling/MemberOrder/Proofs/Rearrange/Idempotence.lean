import MemberOrder.Proofs.Order.Settled
import MemberOrder.Proofs.Rearrange.Again

/-!
Sorting twice. The result of sorting a source whose layout is detachable, and whose last method ends
it as it should, is read as a layout that resembles the one it came from, with the methods numbered
in their new order. So a second sort changes nothing exactly if that order is settled. Without
clusters this is so where calls have no cycle, and fails where two methods that call each other come
to stand side by side: each of them comes before the other, and a sort turns them round every time.
-/

set_option autoImplicit false

namespace MemberOrder.Rearrange

/-- A result stays as it is when it is sorted again exactly if its order is settled. -/
theorem sort_result_eq_iff {text result : Text} {layout : Layout} (h : movable? text = some layout)
    (hdetachable : layout.Detachable) {options : Options} {order : List Method}
    (horder : options.ordered? layout.methods = some order)
    (hlast : ∀ last ∈ order.getLast?, layout.EndsWith last)
    (hresult : layout.assemble? order = some result) :
    sort options result = .ok result ↔ options.Settled order := by
  obtain ⟨hcomplete, hmethods⟩ := movable?_eq_some h
  have hperm := Options.perm_of_ordered? horder
  obtain ⟨again, hread, hne, hessence, hresembles⟩ :=
    Layout.exists_resembles hcomplete hmethods hdetachable hperm hlast hresult
  have hagain : movable? result = some again := by
    rw [movable?, hread]
    exact Option.filter_eq_some_iff.mpr ⟨rfl, by simpa using hne⟩
  have horder' := exists_ordered?_eq hagain options
  set order' := options.clustered (options.sorted again.methods)
  have hplaceless := Method.map_placeless_renumbered hessence
    (List.range_eq_range' ▸ (Reading.tiles_of_complete hread).map_position)
  have hsettled : options.Settled order ↔ order'.map Method.essence = order.map Method.essence := by
    rw [Options.Settled, ← options.map_essence_ordered?_congr hplaceless, horder', Option.map_some,
      Option.some.injEq]
  rw [hsettled, sort_of_movable? hagain horder', place]
  constructor
  · intro hsame
    have hassembled : again.assemble? order' = some result := by
      cases hfound : again.assemble? order' with
      | none => simp [hfound] at hsame
      | some found => simpa [hfound] using hsame
    rw [← hessence]
    exact Layout.map_essence_of_assemble? hread hne (hresembles.detachable hdetachable)
      (Options.perm_of_ordered? horder') hassembled
  · intro hsame
    rw [hresembles.assemble?_eq hcomplete hmethods hread hne hsame, hresult]

/-- Sorting a source twice, for every source and all options. A source without methods to move stays
as it is. For one whose layout is detachable and whose last method, in the order it is given, ends
the result as it should, the second sort changes nothing exactly if that order is settled. Without
clusters it is settled if no chain of calls leads from a method back to it, and, no two methods being
alike, exactly if no two neighbours of the order are entangled. -/
theorem sort_sort_eq_iff (options : Options) (text : Text) :
    (movable? text = none → sort options text = .ok text) ∧
    ∀ layout, movable? text = some layout → layout.Detachable →
      ∃ order result, options.ordered? layout.methods = some order ∧
        sort options text = .ok result ∧
        ((∀ last ∈ order.getLast?, layout.EndsWith last) →
          (sort options result = .ok result ↔ options.Settled order)) ∧
        (options.Unclustered → (CallGraph.ofMethods layout.methods).Acyclic →
          options.Settled order) ∧
        (options.Unclustered → (layout.methods.map Method.essence).Nodup →
          (options.Settled order ↔ order.IsChain fun a b ↦
            ¬ options.Entangled (CallGraph.ofMethods layout.methods) a b)) := by
  refine ⟨fun hnone ↦ ?_, fun layout h hdetachable ↦ ?_⟩
  · rw [sort, hnone]
  · have hordered := exists_ordered?_eq h options
    set order := options.clustered (options.sorted layout.methods)
    obtain ⟨result, hresult, -⟩ :=
      Layout.exists_assemble?_eq (Options.perm_of_ordered? hordered).length_eq.ge
    refine ⟨order, result, hordered, ?_, fun hlast ↦ ?_, fun hplain hacyclic ↦ ?_,
      fun hplain hdistinct ↦ ?_⟩
    · rw [sort_of_movable? h hordered, place, hresult]
    · exact sort_result_eq_iff h hdetachable hordered hlast hresult
    · refine Options.settled_of_isChain hplain hordered (List.isChain_iff_getElem.mpr fun i hi ↦ ?_)
      exact options.not_entangled_of_acyclic hacyclic _ _
    · exact Options.settled_iff_isChain hplain hordered hdistinct

/-- A method below the one it calls. -/
def callerBelowSource : Text :=
  "class C \x7b\n  void open() \x7b\x7d\n  void reopen() \x7b open(); \x7d\n\x7d\n".toList

/-- The caller moves up, and the second sort changes nothing. -/
theorem callerBelowSource_settles :
    ∃ layout order result, movable? callerBelowSource = some layout ∧ layout.Detachable ∧
      breadthFirst.ordered? layout.methods = some order ∧ breadthFirst.Unclustered ∧
      (CallGraph.ofMethods layout.methods).Acyclic ∧ breadthFirst.Settled order ∧
      sort breadthFirst callerBelowSource = .ok result ∧ result ≠ callerBelowSource ∧
      sort breadthFirst result = .ok result := by
  have hsome : (movable? callerBelowSource).any fun layout ↦
      decide (layout.Detachable ∧ (∀ m ∈ layout.methods, layout.EndsWith m) ∧
        ∀ m ∈ layout.methods, ∀ callee ∈ m.calls, callee ∈ layout.methods.map Method.name →
          callee ≠ m.name → callee.length < m.name.length) := by
    decide +kernel
  have hmoved : sort breadthFirst callerBelowSource ≠ .ok callerBelowSource := by decide +kernel
  obtain ⟨-, hsort⟩ := sort_sort_eq_iff breadthFirst callerBelowSource
  cases h : movable? callerBelowSource with
  | none => simp [h] at hsome
  | some layout =>
    simp only [h, Option.any_some, decide_eq_true_eq] at hsome
    obtain ⟨hdetachable, hends, hrank⟩ := hsome
    obtain ⟨order, result, horder, hresult, hiff, hacyclic, -⟩ := hsort layout h hdetachable
    have hplain : breadthFirst.Unclustered := by decide
    have hcycle := CallGraph.acyclic_of_rank List.length hrank
    have hsettled := hacyclic hplain hcycle
    refine ⟨layout, order, result, rfl, hdetachable, horder, hplain, hcycle, hsettled, hresult, ?_,
      (hiff fun last hlast ↦ hends last ?_).mpr hsettled⟩
    · rintro rfl
      exact hmoved hresult
    · exact (Options.perm_of_ordered? horder).mem_iff.mp (List.mem_of_getLast? hlast)

/-- Two methods that call each other. -/
def mutualCallSource : Text :=
  "class C \x7b\n  void a() \x7b b(); \x7d\n  void b() \x7b a(); \x7d\n\x7d\n".toList

/-- Each sort of two methods that call each other turns them round. -/
theorem mutualCallSource_turns :
    ∃ first second, sort breadthFirst mutualCallSource = .ok first ∧
      sort breadthFirst first = .ok second ∧ second ≠ first ∧
      sort breadthFirst second = .ok first := by
  refine ⟨"class C \x7b\n\n  void b() \x7b a(); \x7d\n\n  void a() \x7b b(); \x7d\n\x7d\n".toList,
    "class C \x7b\n\n  void a() \x7b b(); \x7d\n\n  void b() \x7b a(); \x7d\n\x7d\n".toList, ?_⟩
  decide +kernel

end MemberOrder.Rearrange
