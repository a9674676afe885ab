import Mathlib.Data.List.InsertIdx
import MemberOrder.Proofs.RunSort.Sorting

/-!
A start of the list that ascends already keeps its order, whatever the comparison answers otherwise:
it lies in the first run, and neither insertion nor merging turns two elements of one run round.
-/

set_option autoImplicit false

namespace MemberOrder

namespace RunSort

variable {α : Type} {before : α → α → Bool}

theorem Woven.sublist_first {takes : α → α → Bool} {a b out : List α} (h : Woven takes a b out) :
    a.Sublist out := by
  obtain ⟨strand, -, rfl, rfl, rfl⟩ := h
  induction strand with
  | nil => exact List.Sublist.slnil
  | cons first rest ih =>
    cases first with
    | inl x => exact ih.cons_cons x
    | inr y => exact ih.cons y

theorem Woven.sublist_second {takes : α → α → Bool} {a b out : List α} (h : Woven takes a b out) :
    b.Sublist out := by
  obtain ⟨strand, -, rfl, rfl, rfl⟩ := h
  induction strand with
  | nil => exact List.Sublist.slnil
  | cons first rest ih =>
    cases first with
    | inl x => exact ih.cons x
    | inr y => exact ih.cons_cons y

theorem prefix_chain {related : α → α → Bool} {last : α} {front : List α} (rest : List α)
    (h : (last :: front).IsChain fun x y ↦ related x y = true) :
    front <+: (chain related last (front ++ rest)).1 := by
  induction front generalizing last with
  | nil => exact List.nil_prefix
  | cons x front ih =>
    obtain ⟨hrelated, hfront⟩ := List.isChain_cons_cons.mp h
    rw [List.cons_append, chain, if_pos hrelated]
    exact List.cons_prefix_cons.mpr ⟨rfl, ih hfront⟩

theorem sublist_firstRun {front : List α} (rest : List α)
    (h : front.IsChain fun x y ↦ before y x = false) :
    front.Sublist (firstRun before (front ++ rest)).1 := by
  match front with
  | [] => exact List.nil_sublist _
  | [x] =>
    rw [List.singleton_sublist]
    cases rest with
    | nil => simp [firstRun]
    | cons y rest =>
      simp only [List.cons_append, List.nil_append, firstRun]
      split <;> simp
  | x :: y :: front =>
    obtain ⟨hstep, hfront⟩ := List.isChain_cons_cons.mp h
    have hbegins : front <+: (chain (fun a b ↦ !before b a) y (front ++ rest)).1 :=
      prefix_chain rest (hfront.imp fun a b hab ↦ by simp [hab])
    simp only [List.cons_append, firstRun]
    rw [if_neg (by simp [hstep])]
    exact (hbegins.sublist.cons_cons y).cons_cons x

theorem sublist_foldl_insert (more run : List α) : run.Sublist (more.foldl (insert before) run) := by
  induction more generalizing run with
  | nil => exact List.Sublist.refl run
  | cons x more ih => exact (List.sublist_insertIdx ..).trans (ih _)

/-- A run of the pending ones, or the start of the rest where none are pending, has the elements in
their order. -/
def Holds (front rest : List α) (runs : List (List α)) : Prop :=
  (runs = [] ∧ front <+: rest) ∨ ∃ run ∈ runs, front.Sublist run

theorem Holds.merges {front rest : List α} {runs runs' : List (List α)}
    (h : Holds front rest runs) (hstep : Merges before runs runs') : Holds front rest runs' := by
  cases hstep with
  | merged above back upper lower threshold =>
    have hwoven := woven_merge before threshold lower upper
    rcases h with ⟨hnil, -⟩ | ⟨run, hrun, hfront⟩
    · simp at hnil
    · right
      simp only [List.mem_append, List.mem_cons] at hrun
      rcases hrun with hrun | rfl | rfl | hrun
      · exact ⟨run, by simp [hrun], hfront⟩
      · exact ⟨_, by simp, hfront.trans hwoven.sublist_second⟩
      · exact ⟨_, by simp, hfront.trans hwoven.sublist_first⟩
      · exact ⟨run, by simp [hrun], hfront⟩

theorem Holds.nextRun {front rest : List α} {runs : List (List α)}
    (hfront : front.IsChain fun x y ↦ before y x = false) (h : Holds front rest runs)
    (least : Nat) :
    Holds front (nextRun before least rest).2 ((nextRun before least rest).1 :: runs) := by
  right
  rcases h with ⟨-, others, rfl⟩ | ⟨run, hrun, hsub⟩
  · exact ⟨_, List.mem_cons_self,
      (sublist_firstRun others hfront).trans (sublist_foldl_insert _ _)⟩
  · exact ⟨run, List.mem_cons_of_mem _ hrun, hsub⟩

end RunSort

open RunSort

/-- A start of the list along which no element comes before the one it follows keeps its order. -/
theorem sublist_runSort {α : Type} {before : α → α → Bool} {front rest : List α}
    (h : front.IsChain fun x y ↦ before y x = false) :
    front.Sublist (runSort before (front ++ rest)) := by
  have hstart : Holds front (front ++ rest) [] := Or.inl ⟨rfl, List.prefix_append front rest⟩
  have hend : Holds front [] [runSort before (front ++ rest)] := by
    refine collect_induction (P := Holds front) Holds.merges (fun h' ↦ h'.nextRun h _)
      (fun h' ↦ ?_) _ gallopGain hstart
    rcases h' with ⟨-, hnil⟩ | ⟨run, hrun, -⟩
    · exact Or.inr ⟨[], List.mem_cons_self, hnil.sublist⟩
    · simp at hrun
  rcases hend with ⟨hnil, -⟩ | ⟨run, hrun, hsub⟩
  · simp at hnil
  · rwa [List.mem_singleton.mp hrun] at hsub

end MemberOrder
