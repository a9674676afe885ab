import Mathlib.Logic.Relation
import Mathlib.Tactic.Tauto
import MemberOrder.Proofs.RunSort.Weaving

/-!
What sorting by natural runs does for any comparison, consistent or not. The result has the elements
of the list, and two neighbours of it have always been compared, the one that stood later in the list
with the one that stood earlier: either the later one comes before the earlier, or it does not. So a
list without repetition is returned as it is exactly if none of it comes before the one it follows.
-/

set_option autoImplicit false

namespace MemberOrder

namespace RunSort

variable {α : Type} {before : α → α → Bool} {E Q : α → α → Prop}

/-- What holds of two elements, one of which stood earlier, in whichever way a comparison of the
later with the earlier one has put them. -/
structure Follows (before : α → α → Bool) (E Q : α → α → Prop) : Prop where
  of_before : ∀ x y, E y x → before x y = true → Q x y
  of_not_before : ∀ x y, E x y → before y x = false → Q x y

/-! ### Runs -/

theorem chain_spec {R : α → α → Prop} {related : α → α → Bool}
    (hR : ∀ x y, E x y → related x y = true → R x y) {last : α} {l : List α}
    (hl : (last :: l).IsChain E) :
    (chain related last l).1 ++ (chain related last l).2 = l ∧
      (last :: (chain related last l).1).IsChain R := by
  induction l generalizing last with
  | nil => exact ⟨rfl, List.IsChain.singleton _⟩
  | cons x rest ih =>
    obtain ⟨hearlier, hrest⟩ := List.isChain_cons_cons.mp hl
    simp only [chain]
    split
    · rename_i hrelated
      obtain ⟨happend, hchain⟩ := ih hrest
      exact ⟨congrArg (x :: ·) happend, List.IsChain.cons_cons (hR last x hearlier hrelated) hchain⟩
    · exact ⟨rfl, List.IsChain.singleton _⟩

/-- The first run has the elements of a start of the list, in order, and the rest follows it. -/
theorem firstRun_spec (hQ : Follows before E Q) {l : List α} (hl : l.IsChain E) :
    ∃ front, (firstRun before l).1.Perm front ∧ front ++ (firstRun before l).2 = l ∧
      (firstRun before l).1.IsChain Q := by
  match l with
  | [] => exact ⟨[], List.Perm.refl _, rfl, List.IsChain.nil⟩
  | [x] => exact ⟨[x], List.Perm.refl _, rfl, List.IsChain.singleton x⟩
  | x :: y :: rest =>
    obtain ⟨hearlier, hrest⟩ := List.isChain_cons_cons.mp hl
    simp only [firstRun]
    split
    · rename_i hbefore
      obtain ⟨happend, hchain⟩ := chain_spec (fun a b hab ↦ hQ.of_before b a hab) hrest
      refine ⟨_, List.reverse_perm _, congrArg (x :: y :: ·) happend, ?_⟩
      exact List.isChain_reverse.mpr
        (List.IsChain.cons_cons (hQ.of_before y x hearlier hbefore) hchain)
    · rename_i hbefore
      have hR : ∀ a b, E a b → (!before b a) = true → Q a b :=
        fun a b hE hab ↦ hQ.of_not_before a b hE (by simpa using hab)
      obtain ⟨happend, hchain⟩ := chain_spec hR hrest
      refine ⟨_, List.Perm.refl _, congrArg (x :: y :: ·) happend, ?_⟩
      exact List.IsChain.cons_cons (hR x y hearlier (by simpa using hbefore)) hchain

theorem chain_of_isChain {related : α → α → Bool} {last : α} {l : List α}
    (h : (last :: l).IsChain fun x y ↦ related x y = true) : chain related last l = (l, []) := by
  induction l generalizing last with
  | nil => rfl
  | cons x rest ih =>
    obtain ⟨hrelated, hrest⟩ := List.isChain_cons_cons.mp h
    simp only [chain]
    rw [if_pos hrelated, ih hrest]

theorem firstRun_of_isChain {l : List α} (h : l.IsChain fun x y ↦ before y x = false) :
    firstRun before l = (l, []) := by
  match l with
  | [] => rfl
  | [x] => rfl
  | x :: y :: rest =>
    obtain ⟨hstep, hrest⟩ := List.isChain_cons_cons.mp h
    have hchain : chain (fun a b ↦ !before b a) y rest = (rest, []) :=
      chain_of_isChain (hrest.imp fun a b hab ↦ by simp [hab])
    simp only [firstRun]
    rw [if_neg (by simp [hstep]), hchain]

theorem insert_spec (hQ : Follows before E Q) {run : List α} (hrun : run.IsChain Q) {x : α}
    (hx : ∀ z ∈ run, E z x) :
    (insert before run x).Perm (x :: run) ∧ (insert before run x).IsChain Q := by
  obtain ⟨-, hle, hbelow, habove⟩ :=
    bisect_spec (fun i ↦ !run[i]?.any (before x)) (Nat.zero_le run.length)
  refine ⟨List.perm_insertIdx x run hle, ?_⟩
  unfold insert
  set place := bisect (fun i ↦ !run[i]?.any (before x)) 0 run.length
  obtain ⟨front, back, hsplit, hlength, hinsert⟩ :=
    List.exists_of_modifyTailIdx (List.cons x) hle
  rw [List.insertIdx, hinsert]
  rw [hsplit] at hrun
  obtain ⟨hfront, hback, -⟩ := List.isChain_append.mp hrun
  refine List.isChain_append.mpr ⟨hfront, List.isChain_cons.mpr ⟨fun z hz ↦ ?_, hback⟩, ?_⟩
  · have hget : run[place]? = some z := by
      rw [hsplit, List.getElem?_append_right (by omega), ← hlength, Nat.sub_self,
        ← List.head?_eq_getElem?]
      exact hz
    refine hQ.of_before x z (hx z (List.mem_of_getElem? hget)) ?_
    have hasked := habove (List.getElem?_eq_some_iff.mp hget).1
    rw [hget] at hasked
    simpa using hasked
  · intro z hz w hw
    cases hw
    rw [Option.mem_def, List.getLast?_eq_getElem?, hlength] at hz
    have hpos : 0 < place := by
      have := (List.getElem?_eq_some_iff.mp hz).1
      omega
    have hget : run[place - 1]? = some z := by
      rw [hsplit, List.getElem?_append_left (by omega)]
      exact hz
    refine hQ.of_not_before z x (hx z (List.mem_of_getElem? hget)) ?_
    have hasked := hbelow hpos
    rw [hget] at hasked
    simpa using hasked

theorem foldl_insert_spec (hQ : Follows before E Q) {more : List α} (hmore : more.Pairwise E)
    {run : List α} (hrun : run.IsChain Q) (hearlier : ∀ z ∈ run, ∀ x ∈ more, E z x) :
    (more.foldl (insert before) run).Perm (run ++ more) ∧
      (more.foldl (insert before) run).IsChain Q := by
  induction more generalizing run with
  | nil => exact ⟨by simp, hrun⟩
  | cons x rest ih =>
    obtain ⟨hfirst, hrest⟩ := List.pairwise_cons.mp hmore
    obtain ⟨hperm, hchain⟩ :=
      insert_spec hQ hrun fun z hz ↦ hearlier z hz x List.mem_cons_self
    have hearlier' : ∀ z ∈ insert before run x, ∀ w ∈ rest, E z w := by
      intro z hz w hw
      rcases List.mem_cons.mp (hperm.mem_iff.mp hz) with rfl | hz
      · exact hfirst w hw
      · exact hearlier z hz w (List.mem_cons_of_mem _ hw)
    obtain ⟨hperm', hchain'⟩ := ih hrest hchain hearlier'
    refine ⟨hperm'.trans ((hperm.append_right rest).trans ?_), hchain'⟩
    exact List.perm_middle.symm

/-- The next run has the elements of a start of the list, in order, and the rest follows it. -/
theorem nextRun_spec (hQ : Follows before E Q) (least : Nat) {l : List α} (hl : l.Pairwise E) :
    ∃ front, (nextRun before least l).1.Perm front ∧ front ++ (nextRun before least l).2 = l ∧
      (nextRun before least l).1.IsChain Q := by
  obtain ⟨front, hperm, happend, hchain⟩ := firstRun_spec hQ hl.isChain
  set missing := least - (firstRun before l).1.length
  rw [← happend] at hl
  obtain ⟨-, hrest, hearlier⟩ := List.pairwise_append.mp hl
  obtain ⟨hperm', hchain'⟩ := foldl_insert_spec hQ (hrest.sublist (List.take_sublist missing _))
    hchain fun z hz x hx ↦ hearlier z (hperm.mem_iff.mp hz) x (List.mem_of_mem_take hx)
  refine ⟨_, hperm'.trans (hperm.append_right _), ?_, hchain'⟩
  have htail : (nextRun before least l).2 = (firstRun before l).2.drop missing := rfl
  rw [htail, List.append_assoc, List.take_append_drop, happend]

/-! ### Pending runs -/

/-- Two adjacent runs of the pending ones become one. The topmost run comes first. -/
inductive Merges (before : α → α → Bool) : List (List α) → List (List α) → Prop
  | merged (front rest : List (List α)) (upper lower : List α) (threshold : Nat) :
    Merges before (front ++ upper :: lower :: rest)
      (front ++ (merge before threshold lower upper).1 :: rest)

section Steps

variable (before)

theorem mergeDeeper_merges (depth threshold : Nat) (runs : List (Run α)) :
    Relation.ReflTransGen (Merges before) (runs.map Run.items)
      ((mergeDeeper before depth threshold runs).1.map Run.items) := by
  fun_induction mergeDeeper before depth threshold runs with
  | case1 threshold upper lower rest hdepth items threshold' hmerge ih =>
    have hstep := @Merges.merged α before [] (rest.map Run.items) upper.items lower.items
      threshold
    rw [hmerge] at hstep
    exact Relation.ReflTransGen.head hstep ih
  | case2 => exact Relation.ReflTransGen.refl
  | case3 => exact Relation.ReflTransGen.refl

/-- A new run comes on top of what the pending ones have been merged to. -/
theorem exists_push_eq (size threshold : Nat) (pending : List (Run α)) (items : List α) :
    ∃ merged, Relation.ReflTransGen (Merges before) (pending.map Run.items) merged ∧
      (push before size threshold pending items).1.map Run.items = items :: merged := by
  unfold push
  split
  · exact ⟨[], Relation.ReflTransGen.refl, rfl⟩
  · rename_i top rest
    have hmerges := mergeDeeper_merges before (boundaryDepth size top items.length) threshold
      (top :: rest)
    refine ⟨_, hmerges, ?_⟩
    dsimp only
    split
    · rename_i threshold' heq
      rw [heq]
      rfl
    · rename_i run others threshold' heq
      rw [heq]
      rfl

theorem collapse_merges (threshold : Nat) {runs : List (Run α)} (h : runs ≠ []) :
    Relation.ReflTransGen (Merges before) (runs.map Run.items)
      [collapse before threshold runs] := by
  fun_induction collapse before threshold runs with
  | case1 => exact absurd rfl h
  | case2 => exact Relation.ReflTransGen.refl
  | case3 threshold upper lower =>
    exact Relation.ReflTransGen.single (Merges.merged [] [] upper.items lower.items threshold)
  | case4 threshold upper middle lower rest hshorter items threshold' hmerge ih =>
    have hstep := @Merges.merged α before [upper.items] (rest.map Run.items) middle.items
      lower.items threshold
    rw [hmerge] at hstep
    exact Relation.ReflTransGen.head hstep (ih (by simp))
  | case5 threshold upper middle lower rest hshorter items threshold' hmerge ih =>
    have hstep := @Merges.merged α before [] ((lower :: rest).map Run.items) upper.items
      middle.items threshold
    rw [hmerge] at hstep
    exact Relation.ReflTransGen.head hstep (ih (by simp))

end Steps

/-- What holds of the rest of the list and the pending runs, and is kept when two runs are merged
and when the next run is taken from the rest, holds of the result. -/
theorem collect_induction {P : List α → List (List α) → Prop} {least : Nat}
    (hmerge : ∀ {rest runs runs'}, P rest runs → Merges before runs runs' → P rest runs')
    (hnext : ∀ {x rest runs}, P (x :: rest) runs →
      P (nextRun before least (x :: rest)).2 ((nextRun before least (x :: rest)).1 :: runs))
    (hnil : P [] [] → P [] [[]]) (size threshold : Nat) {pending : List (Run α)} {rest : List α}
    (h : P rest (pending.map Run.items)) :
    P [] [collect before size least threshold pending rest] := by
  have hmerges {rest : List α} {runs runs' : List (List α)} (hruns : P rest runs)
      (hsteps : Relation.ReflTransGen (Merges before) runs runs') : P rest runs' := by
    induction hsteps with
    | refl => exact hruns
    | tail _ hstep ih => exact hmerge ih hstep
  fun_induction collect before size least threshold pending rest with
  | case1 threshold pending =>
    by_cases hpending : pending = []
    · subst hpending
      simpa [collapse] using hnil h
    · exact hmerges h (collapse_merges before threshold hpending)
  | case2 threshold pending x rest pushed ih =>
    obtain ⟨merged, hsteps, heq⟩ := exists_push_eq before size threshold pending
      (nextRun before least (x :: rest)).1
    refine ih ?_
    rw [heq]
    exact hnext (hmerges h hsteps)

theorem merge_spec (hQ : Follows before E Q) (threshold : Nat) {a b : List α} (ha : a.IsChain Q)
    (hb : b.IsChain Q) (hearlier : ∀ x ∈ a, ∀ y ∈ b, E x y) :
    (merge before threshold a b).1.Perm (a ++ b) ∧ (merge before threshold a b).1.IsChain Q := by
  have hwoven := woven_merge before threshold a b
  refine ⟨hwoven.perm, hwoven.isChain ha hb ?_ ?_⟩
  · exact fun x hx y hy h ↦ hQ.of_not_before x y (hearlier x hx y hy) h
  · exact fun x hx y hy h ↦ hQ.of_before y x (hearlier x hx y hy) h

/-- The pending runs are in order each, with what stood earlier in the lower one, and together with
the rest they have the elements of the list. -/
structure Pending (E Q : α → α → Prop) (l rest : List α) (runs : List (List α)) : Prop where
  isChain : ∀ run ∈ runs, run.IsChain Q
  earlier : runs.Pairwise fun upper lower ↦ ∀ x ∈ lower, ∀ y ∈ upper, E x y
  pairwise_rest : rest.Pairwise E
  earlier_rest : ∀ run ∈ runs, ∀ x ∈ run, ∀ y ∈ rest, E x y
  perm : (runs.flatten ++ rest).Perm l

namespace Pending

variable {l rest : List α} {runs runs' : List (List α)}

theorem merges (hQ : Follows before E Q) (h : Pending E Q l rest runs)
    (hstep : Merges before runs runs') : Pending E Q l rest runs' := by
  cases hstep with
  | merged front back upper lower threshold =>
    obtain ⟨hfront, hback, hcross⟩ := List.pairwise_append.mp h.earlier
    obtain ⟨hupper, hback⟩ := List.pairwise_cons.mp hback
    obtain ⟨hlower, hback⟩ := List.pairwise_cons.mp hback
    obtain ⟨hperm, hchain⟩ := merge_spec hQ threshold (h.isChain lower (by simp))
      (h.isChain upper (by simp)) (hupper lower List.mem_cons_self)
    set run := (merge before threshold lower upper).1
    have hmem {x : α} (hx : x ∈ run) : x ∈ lower ∨ x ∈ upper :=
      List.mem_append.mp (hperm.mem_iff.mp hx)
    have hkept {other : List α} (hother : other ∈ front ++ run :: back) :
        other ∈ front ++ upper :: lower :: back ∨ other = run := by
      simp only [List.mem_append, List.mem_cons] at hother ⊢
      tauto
    refine ⟨fun other hother ↦ ?_, List.pairwise_append.mpr ⟨hfront, List.pairwise_cons.mpr
      ⟨fun other hother x hx y hy ↦ ?_, hback⟩, fun above habove other hother x hx y hy ↦ ?_⟩,
      h.pairwise_rest, fun other hother x hx y hy ↦ ?_, ?_⟩
    · rcases hkept hother with hmem | rfl
      · exact h.isChain other hmem
      · exact hchain
    · rcases hmem hy with hy | hy
      · exact hlower other hother x hx y hy
      · exact hupper other (List.mem_cons_of_mem _ hother) x hx y hy
    · rcases List.mem_cons.mp hother with rfl | hother
      · rcases hmem hx with hx | hx
        · exact hcross above habove lower (by simp) x hx y hy
        · exact hcross above habove upper (by simp) x hx y hy
      · exact hcross above habove other (by simp [hother]) x hx y hy
    · rcases hkept hother with hin | rfl
      · exact h.earlier_rest other hin x hx y hy
      · rcases hmem hx with hx | hx
        · exact h.earlier_rest lower (by simp) x hx y hy
        · exact h.earlier_rest upper (by simp) x hx y hy
    · refine List.Perm.trans (List.Perm.append_right rest ?_) h.perm
      simp only [List.flatten_append, List.flatten_cons]
      refine List.Perm.append_left _ ?_
      rw [← List.append_assoc]
      exact (hperm.trans List.perm_append_comm).append_right _

/-- The next run of the rest stood behind all pending ones and comes on top. -/
theorem nextRun (hQ : Follows before E Q) (least : Nat) (h : Pending E Q l rest runs) :
    Pending E Q l (nextRun before least rest).2 ((nextRun before least rest).1 :: runs) := by
  obtain ⟨front, hperm, happend, hchain⟩ := nextRun_spec hQ least h.pairwise_rest
  set run := (RunSort.nextRun before least rest).1
  set others := (RunSort.nextRun before least rest).2
  have hrest := h.pairwise_rest
  have hearlier := h.earlier_rest
  rw [← happend] at hrest hearlier
  obtain ⟨-, hothers, hcross⟩ := List.pairwise_append.mp hrest
  have hrun {y : α} (hy : y ∈ run) : y ∈ front := hperm.mem_iff.mp hy
  refine ⟨List.forall_mem_cons.mpr ⟨hchain, h.isChain⟩, List.pairwise_cons.mpr
    ⟨fun other hother x hx y hy ↦ ?_, h.earlier⟩, hothers, List.forall_mem_cons.mpr
    ⟨fun x hx y hy ↦ hcross x (hrun hx) y hy, fun other hother x hx y hy ↦ ?_⟩, ?_⟩
  · exact hearlier other hother x hx y (List.mem_append_left _ (hrun hy))
  · exact hearlier other hother x hx y (List.mem_append_right _ hy)
  · refine List.Perm.trans ?_ h.perm
    rw [List.flatten_cons, List.append_assoc, ← happend]
    exact (hperm.append_right _).trans (List.perm_append_comm_assoc _ _ _)

end Pending

end RunSort

open RunSort

variable {α : Type} (before : α → α → Bool)

/-- Sorting permutes the list, and of two neighbours of the result the one that stood later was
compared with the other. -/
theorem runSort_spec {E Q : α → α → Prop} (hQ : Follows before E Q) {l : List α}
    (hl : l.Pairwise E) : (runSort before l).Perm l ∧ (runSort before l).IsChain Q := by
  have hstart : Pending E Q l l [] := ⟨by simp, List.Pairwise.nil, hl, by simp, List.Perm.refl _⟩
  have hend : Pending E Q l [] [runSort before l] := by
    refine collect_induction (fun h hstep ↦ h.merges hQ hstep) (fun h ↦ h.nextRun hQ _)
      (fun h ↦ ?_) l.length gallopGain hstart
    exact ⟨by simp, List.pairwise_singleton _ _, h.pairwise_rest, by simp, by simpa using h.perm⟩
  exact ⟨by simpa using hend.perm, hend.isChain _ List.mem_cons_self⟩

/-- Sorting permutes the list, whatever the comparison answers. -/
theorem runSort_perm (l : List α) : (runSort before l).Perm l :=
  (runSort_spec before (E := fun _ _ ↦ True) (Q := fun _ _ ↦ True)
    ⟨fun _ _ _ _ ↦ trivial, fun _ _ _ _ ↦ trivial⟩ (List.pairwise_of_forall fun _ _ ↦ trivial)).1

/-- Of two neighbours of a sorted list the first comes before the second, or the second does not come
before the first. -/
theorem isChain_runSort (l : List α) :
    (runSort before l).IsChain fun x y ↦ before x y = true ∨ before y x = false :=
  (runSort_spec before (E := fun _ _ ↦ True) ⟨fun _ _ _ ↦ Or.inl, fun _ _ _ ↦ Or.inr⟩
    (List.pairwise_of_forall fun _ _ ↦ trivial)).2

/-- A list without a neighbour that comes before the one it follows stays as it is. -/
theorem runSort_of_isChain {l : List α} (h : l.IsChain fun x y ↦ before y x = false) :
    runSort before l = l := by
  cases l with
  | nil => simp [runSort, collect, collapse]
  | cons x rest =>
    have hfirst : firstRun before (x :: rest) = (x :: rest, []) := firstRun_of_isChain h
    have hnext (least : Nat) : nextRun before least (x :: rest) = (x :: rest, []) := by
      simp [nextRun, hfirst]
    unfold runSort
    rw [collect, hnext]
    simp [collect, push, collapse]

/-- A list without repetition stays as it is exactly if none of it comes before the one it
follows. -/
theorem runSort_eq_self_iff {l : List α} (hl : l.Nodup) :
    runSort before l = l ↔ l.IsChain fun x y ↦ before y x = false := by
  refine ⟨fun hsame ↦ ?_, runSort_of_isChain before⟩
  -- Neighbours that stay where they stood cannot have been turned round.
  let Earlier (x y : α) : Prop := ∃ i j : Nat, i < j ∧ l[i]? = some x ∧ l[j]? = some y
  have hearlier : l.Pairwise Earlier := List.pairwise_iff_getElem.mpr fun i j hi hj hij ↦
    ⟨i, j, hij, List.getElem?_eq_getElem hi, List.getElem?_eq_getElem hj⟩
  have hasymm {x y : α} (hxy : Earlier x y) : ¬ Earlier y x := by
    rintro ⟨i', j', hij', hi', hj'⟩
    obtain ⟨i, j, hij, hi, hj⟩ := hxy
    have hplace {a b : Nat} {z : α} (ha : l[a]? = some z) (hb : l[b]? = some z) : a = b :=
      (List.getElem?_inj (List.getElem?_eq_some_iff.mp ha).1 hl).mp (ha.trans hb.symm)
    have := hplace hi hj'
    have := hplace hj hi'
    omega
  have hchain := (runSort_spec before (E := Earlier)
    (Q := fun x y ↦ Earlier y x ∨ before y x = false)
    ⟨fun _ _ hE _ ↦ Or.inl hE, fun _ _ _ hnot ↦ Or.inr hnot⟩ hearlier).2
  rw [hsame] at hchain
  refine List.isChain_iff_getElem.mpr fun i hi ↦ ?_
  exact (List.isChain_iff_getElem.mp hchain i hi).resolve_left
    (hasymm (List.isChain_iff_getElem.mp hearlier.isChain i hi))

end MemberOrder
