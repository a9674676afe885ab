import Mathlib.Tactic.SplitIfs
import MemberOrder.Proofs.Order.Search

/-!
What a call graph of methods relates. A name calls another if a method of that name does, and
reaches it by a chain of calls. So the relations depend on the names and calls of the methods and not
on their order.
-/

set_option autoImplicit false

namespace MemberOrder.CallGraph

theorem lookup_map_pair {α β : Type} [BEq α] [LawfulBEq α] (f : α → β) (keys : List α) (key : α) :
    (keys.map fun other ↦ (other, f other)).lookup key =
      if key ∈ keys then some (f key) else none := by
  induction keys with
  | nil => rfl
  | cons other keys ih =>
    rw [List.map_cons, List.lookup_cons]
    by_cases h : key = other
    · simp [h]
    · rw [beq_false_of_ne h, ih]
      simp [h]

/-- A name calls another of the class if a method of that name does. -/
theorem calls_ofMethods_iff (methods : List Method) (caller callee : Text) :
    (ofMethods methods).calls caller callee = true ↔
      callee ≠ caller ∧ callee ∈ methods.map Method.name ∧
        ∃ m ∈ methods, m.name = caller ∧ callee ∈ m.calls := by
  unfold calls calleesOf ofMethods
  simp only [lookup_map_pair, List.contains_iff_mem, List.mem_eraseDups]
  split_ifs with hcaller
  · simp only [Option.getD_some, List.mem_filter, List.mem_flatMap, decide_eq_true_eq,
      Bool.and_eq_true, bne_iff_ne, List.contains_iff_mem, List.mem_eraseDups]
    constructor
    · rintro ⟨⟨m, ⟨hm, hname⟩, hcalls⟩, hmem, hne⟩
      exact ⟨hne, hmem, m, hm, hname, hcalls⟩
    · rintro ⟨hne, hmem, m, hm, hname, hcalls⟩
      exact ⟨⟨m, ⟨hm, hname⟩, hcalls⟩, hmem, hne⟩
  · refine iff_of_false (by simp) ?_
    rintro ⟨-, -, m, hm, rfl, -⟩
    exact hcaller (List.mem_map_of_mem hm)

section Congruence

variable {methods methods' : List Method}
  (h : (methods.map fun m ↦ (m.name, m.calls)).Perm (methods'.map fun m ↦ (m.name, m.calls)))

include h

theorem calls_congr : (ofMethods methods).calls = (ofMethods methods').calls := by
  funext caller callee
  have hnames (methods : List Method) : methods.map Method.name =
      (methods.map fun m ↦ (m.name, m.calls)).map Prod.fst := by
    rw [List.map_map]
    rfl
  have hcalls (methods : List Method) : (∃ m ∈ methods, m.name = caller ∧ callee ∈ m.calls) ↔
      ∃ entry ∈ methods.map fun m ↦ (m.name, m.calls), entry.1 = caller ∧ callee ∈ entry.2 := by
    constructor
    · rintro ⟨m, hm, hcaller⟩
      exact ⟨(m.name, m.calls), List.mem_map_of_mem hm, hcaller⟩
    · rintro ⟨entry, hentry, hcaller⟩
      obtain ⟨m, hm, rfl⟩ := List.mem_map.mp hentry
      exact ⟨m, hm, hcaller⟩
  rw [Bool.eq_iff_iff, calls_ofMethods_iff, calls_ofMethods_iff, hcalls, hcalls, hnames methods,
    hnames methods', (h.map Prod.fst).mem_iff]
  simp only [h.mem_iff]

theorem reaches_congr : (ofMethods methods).reaches = (ofMethods methods').reaches := by
  funext caller callee
  rw [Bool.eq_iff_iff, reaches_iff_transGen, reaches_iff_transGen, calls_congr h]

end Congruence

end MemberOrder.CallGraph
