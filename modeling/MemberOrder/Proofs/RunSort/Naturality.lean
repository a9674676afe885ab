import Mathlib.Data.List.InsertIdx
import MemberOrder.Proofs.RunSort.Sorting

/-!
Sorting knows nothing of the elements but how the comparison answers. A map along which the answers
are kept can be applied before or after it.
-/

set_option autoImplicit false

namespace MemberOrder.RunSort

variable {α β : Type} {before : α → α → Bool} {before' : β → β → Bool} {f : α → β}
  (h : ∀ x y, before' (f x) (f y) = before x y)

include h

theorem any_before_map (x : α) (run : List α) (i : Nat) :
    (run.map f)[i]?.any (before' (f x)) = run[i]?.any (before x) := by
  rw [List.getElem?_map]
  cases run[i]? with
  | none => rfl
  | some y => exact h x y

theorem any_behind_map (x : α) (run : List α) (i : Nat) :
    (run.map f)[i]?.any (before' · (f x)) = run[i]?.any (before · x) := by
  rw [List.getElem?_map]
  cases run[i]? with
  | none => rfl
  | some y => exact h y x

theorem insert_map (run : List α) (x : α) :
    insert before' (run.map f) (f x) = (insert before run x).map f := by
  unfold insert
  simp only [any_before_map h, List.length_map]
  rw [List.map_insertIdx]

omit h in
theorem chain_map {related : α → α → Bool} {related' : β → β → Bool}
    (h : ∀ x y, related' (f x) (f y) = related x y) (last : α) (l : List α) :
    chain related' (f last) (l.map f) =
      ((chain related last l).1.map f, (chain related last l).2.map f) := by
  induction l generalizing last with
  | nil => rfl
  | cons x rest ih =>
    rw [List.map_cons, chain, chain, h, ih]
    split_ifs <;> rfl

theorem firstRun_map (l : List α) :
    firstRun before' (l.map f) = ((firstRun before l).1.map f, (firstRun before l).2.map f) := by
  match l with
  | [] => rfl
  | [x] => rfl
  | x :: y :: rest =>
    rw [List.map_cons, List.map_cons, firstRun, firstRun, h]
    split_ifs
    · rw [chain_map (fun x y ↦ h y x)]
      simp only [List.reverse_cons, List.map_append, List.map_reverse, List.map_cons, List.map_nil]
    · rw [chain_map (fun x y ↦ congrArg not (h y x))]
      rfl

theorem foldl_insert_map (more run : List α) :
    (more.map f).foldl (insert before') (run.map f) = (more.foldl (insert before) run).map f := by
  induction more generalizing run with
  | nil => rfl
  | cons x more ih => rw [List.map_cons, List.foldl_cons, List.foldl_cons, insert_map h, ih]

theorem nextRun_map (least : Nat) (l : List α) :
    nextRun before' least (l.map f) =
      ((nextRun before least l).1.map f, (nextRun before least l).2.map f) := by
  unfold nextRun
  rw [firstRun_map h]
  simp only [List.length_map, ← List.map_take, ← List.map_drop, foldl_insert_map h]

namespace Side

theorem takesSecond_map (side : Side) (x y : α) :
    side.takesSecond before' (f x) (f y) = side.takesSecond before x y := by
  cases side with
  | front => exact h y x
  | back => exact congrArg not (h y x)

omit h in
theorem settled?_map (side : Side) (a b : List α) :
    side.settled? (a.map f) (b.map f) = (side.settled? a b).map (List.map f) := by
  fun_cases settled? side a b <;> simp_all [settled?]

theorem gainOfFirst_map (side : Side) (key : α) (a : List α) :
    side.gainOfFirst before' (f key) (a.map f) = side.gainOfFirst before key a := by
  cases side <;> simp only [gainOfFirst, any_before_map h, List.length_map]

theorem gainOfSecond_map (side : Side) (key : α) (b : List α) :
    side.gainOfSecond before' (f key) (b.map f) = side.gainOfSecond before key b := by
  cases side <;> simp only [gainOfSecond, any_behind_map h, List.length_map]

omit h in
/-- A galloping round in which both runs win and neither ends. -/
theorem mergeAt_galloping (side : Side) (fresh : Bool) (threshold : Nat) {x y x' : α}
    {as bs as' : List α}
    (hopen : side.settled? ((x :: as).drop (side.gainOfFirst before y (x :: as))) (y :: bs) = none)
    (hopen' : side.settled? ((x :: as).drop (side.gainOfFirst before y (x :: as))) bs = none)
    (hdrop : (x :: as).drop (side.gainOfFirst before y (x :: as)) = x' :: as') :
    side.mergeAt before (.galloping fresh) threshold (x :: as) (y :: bs) =
      let threshold := if fresh || threshold ≤ 1 then threshold else threshold - 1
      let gain := side.gainOfFirst before y (x :: as)
      let gain' := side.gainOfSecond before x' bs
      let won := (x :: as).take gain ++ y :: bs.take gain'
      match side.settled? (x' :: as') (bs.drop gain') with
      | some rest => (won ++ rest, threshold)
      | none =>
        match side.settled? as' (bs.drop gain') with
        | some rest => (won ++ x' :: rest, threshold)
        | none =>
          let next :=
            if gallopGain ≤ gain || gallopGain ≤ gain' then
              side.mergeAt before (.galloping false) threshold as' (bs.drop gain')
            else side.mergeAt before (.stepping 0 0) (threshold + 1) as' (bs.drop gain')
          (won ++ x' :: next.1, next.2) := by
  rw [mergeAt]
  simp only [hopen, hopen']
  split
  · rename_i heq
    rw [hdrop] at heq
    cases heq
  · rename_i heq
    rw [hdrop] at heq
    cases heq
    cases side.settled? (x' :: as') (bs.drop (side.gainOfSecond before x' bs)) with
    | some rest => rfl
    | none =>
      cases side.settled? as' (bs.drop (side.gainOfSecond before x' bs)) with
      | some rest => rfl
      | none =>
        simp only
        split_ifs <;> rfl

/-- The same round over mapped runs. -/
theorem mergeAt_galloping_map (side : Side) (fresh : Bool) (threshold : Nat) {x y x' : α}
    {as bs as' : List α}
    (hopen : side.settled? ((x :: as).drop (side.gainOfFirst before y (x :: as))) (y :: bs) = none)
    (hopen' : side.settled? ((x :: as).drop (side.gainOfFirst before y (x :: as))) bs = none)
    (hdrop : (x :: as).drop (side.gainOfFirst before y (x :: as)) = x' :: as') :
    side.mergeAt before' (.galloping fresh) threshold ((x :: as).map f) ((y :: bs).map f) =
      let threshold := if fresh || threshold ≤ 1 then threshold else threshold - 1
      let gain := side.gainOfFirst before y (x :: as)
      let gain' := side.gainOfSecond before x' bs
      let won := (x :: as).take gain ++ y :: bs.take gain'
      match side.settled? (x' :: as') (bs.drop gain') with
      | some rest => ((won ++ rest).map f, threshold)
      | none =>
        match side.settled? as' (bs.drop gain') with
        | some rest => ((won ++ x' :: rest).map f, threshold)
        | none =>
          let next :=
            if gallopGain ≤ gain || gallopGain ≤ gain' then
              side.mergeAt before' (.galloping false) threshold (as'.map f) ((bs.drop gain').map f)
            else
              side.mergeAt before' (.stepping 0 0) (threshold + 1) (as'.map f)
                ((bs.drop gain').map f)
          (won.map f ++ f x' :: next.1, next.2) := by
  have hgain : side.gainOfFirst before' (f y) (f x :: as.map f) =
      side.gainOfFirst before y (x :: as) := gainOfFirst_map h side y (x :: as)
  have hdrop' : (f x :: as.map f).drop (side.gainOfFirst before' (f y) (f x :: as.map f)) =
      f x' :: as'.map f := by
    rw [hgain, ← List.map_cons, ← List.map_drop, hdrop, List.map_cons]
  have hnone {b : List α} (hb : side.settled? ((x :: as).drop
      (side.gainOfFirst before y (x :: as))) b = none) :
      side.settled? ((f x :: as.map f).drop (side.gainOfFirst before' (f y) (f x :: as.map f)))
        (b.map f) = none := by
    rw [hgain, ← List.map_cons, ← List.map_drop, settled?_map, hb]
    rfl
  rw [List.map_cons, List.map_cons, mergeAt_galloping side fresh threshold (hnone hopen)
    (hnone hopen') hdrop', hgain]
  simp only [← List.map_cons, ← List.map_drop, ← List.map_take, gainOfSecond_map h, settled?_map]
  cases side.settled? (x' :: as') (bs.drop (side.gainOfSecond before x' bs)) with
  | some rest => simp
  | none =>
    cases side.settled? as' (bs.drop (side.gainOfSecond before x' bs)) with
    | some rest => simp
    | none => simp

theorem mergeAt_map (side : Side) (pace : Pace) (threshold : Nat) (a b : List α) :
    side.mergeAt before' pace threshold (a.map f) (b.map f) =
      ((side.mergeAt before pace threshold a b).1.map f,
        (side.mergeAt before pace threshold a b).2) := by
  fun_induction mergeAt before side pace threshold a b with
  | case1 pace threshold b => simp [mergeAt]
  | case2 pace threshold a ha =>
    obtain ⟨x, as, rfl⟩ := List.exists_cons_of_ne_nil ha
    rw [List.map_nil, mergeAt]
    simp
  | case3 threshold x as y bs first second htakes rest hsettled =>
    rw [List.map_cons, List.map_cons, mergeAt, takesSecond_map h, if_pos htakes, ← List.map_cons,
      settled?_map, hsettled]
    rfl
  | case4 threshold x as y bs first second htakes hsettled next rest threshold' hmerge ih =>
    rw [hmerge] at ih
    rw [List.map_cons, List.map_cons, mergeAt, takesSecond_map h, if_pos htakes, ← List.map_cons,
      settled?_map, hsettled]
    change (let found := side.mergeAt before' next threshold ((x :: as).map f) (bs.map f)
      (f y :: found.1, found.2)) = _
    rw [ih]
    rfl
  | case5 threshold x as y bs first second htakes rest hsettled =>
    rw [List.map_cons, List.map_cons, mergeAt, takesSecond_map h, if_neg htakes, ← List.map_cons,
      settled?_map, hsettled]
    rfl
  | case6 threshold x as y bs first second htakes hsettled next rest threshold' hmerge ih =>
    rw [hmerge] at ih
    rw [List.map_cons, List.map_cons, mergeAt, takesSecond_map h, if_neg htakes, ← List.map_cons,
      settled?_map, hsettled]
    change (let found := side.mergeAt before' next threshold (as.map f) ((y :: bs).map f)
      (f x :: found.1, found.2)) = _
    rw [ih]
    rfl
  | case7 threshold x as y bs fresh threshold' gain won rest hsettled =>
    rw [List.map_cons, List.map_cons, mergeAt]
    simp only [← List.map_cons, gainOfFirst_map h, ← List.map_drop, ← List.map_take, settled?_map]
    rw [hsettled]
    simp only [Option.map_some, List.map_append]
    rfl
  | case8 threshold x as y bs fresh threshold' gain won hopen rest hsettled =>
    rw [List.map_cons, List.map_cons, mergeAt]
    simp only [← List.map_cons, gainOfFirst_map h, ← List.map_drop, ← List.map_take, settled?_map]
    rw [hopen, hsettled]
    simp only [Option.map_some, Option.map_none, List.map_append, List.map_cons]
    rfl
  | case9 threshold x as y bs fresh threshold' gain won hopen hopen' hnone =>
    rw [hnone] at hopen
    cases side <;> cases hopen
  | case10 threshold x as y bs fresh threshold' gain won hopen hopen' x' as' hdrop gain' won' rest
      hsettled =>
    rw [mergeAt_galloping_map h side fresh threshold hopen hopen' hdrop]
    simp only
    rw [hsettled]
    rfl
  | case11 threshold x as y bs fresh threshold' gain won hopen hopen' x' as' hdrop gain' won' hgoes
      rest hsettled =>
    rw [mergeAt_galloping_map h side fresh threshold hopen hopen' hdrop]
    simp only
    rw [hgoes, hsettled]
    rfl
  | case12 threshold x as y bs fresh threshold' gain won hopen hopen' x' as' hdrop gain' won' hgoes
      hgoes' hpays rest next hmerge ih =>
    rw [hmerge] at ih
    rw [mergeAt_galloping_map h side fresh threshold hopen hopen' hdrop]
    simp only
    rw [hgoes, hgoes', if_pos hpays]
    refine (congrArg (fun found ↦ (won'.map f ++ f x' :: found.1, found.2)) ih).trans ?_
    exact congrArg (·, next)
      (show won'.map f ++ (x' :: rest).map f = _ from List.map_append.symm)
  | case13 threshold x as y bs fresh threshold' gain won hopen hopen' x' as' hdrop gain' won' hgoes
      hgoes' hpays rest next hmerge ih =>
    rw [hmerge] at ih
    rw [mergeAt_galloping_map h side fresh threshold hopen hopen' hdrop]
    simp only
    rw [hgoes, hgoes', if_neg hpays]
    refine (congrArg (fun found ↦ (won'.map f ++ f x' :: found.1, found.2)) ih).trans ?_
    exact congrArg (·, next)
      (show won'.map f ++ (x' :: rest).map f = _ from List.map_append.symm)

end Side

theorem mergeFront_map (threshold : Nat) (a b : List α) :
    mergeFront before' threshold (a.map f) (b.map f) =
      ((mergeFront before threshold a b).1.map f, (mergeFront before threshold a b).2) := by
  cases b with
  | nil => rfl
  | cons y bs =>
    rw [List.map_cons, mergeFront, mergeFront, Side.settled?_map]
    cases Side.front.settled? a bs with
    | some rest => rfl
    | none =>
      simp only [Option.map_none, Side.mergeAt_map h]
      rfl

theorem mergeBack_map (threshold : Nat) (a b : List α) :
    mergeBack before' threshold (a.map f) (b.map f) =
      ((mergeBack before threshold a b).1.map f, (mergeBack before threshold a b).2) := by
  unfold mergeBack
  rw [← List.map_reverse, ← List.map_reverse]
  cases a.reverse with
  | nil => rfl
  | cons x as =>
    rw [List.map_cons]
    simp only [Side.settled?_map]
    cases Side.back.settled? as b.reverse with
    | some rest => simp
    | none =>
      simp only [Option.map_none, Side.mergeAt_map h]
      rw [← List.map_cons, List.map_reverse]

theorem merge_map (threshold : Nat) (a b : List α) :
    merge before' threshold (a.map f) (b.map f) =
      ((merge before threshold a b).1.map f, (merge before threshold a b).2) := by
  unfold merge
  rw [List.head?_map, List.getLast?_map]
  cases b.head? with
  | none => simp
  | some y =>
    cases a.getLast? with
    | none => simp
    | some x =>
      simp only [Option.map_some, any_before_map h, any_behind_map h, List.length_map,
        ← List.map_drop, ← List.map_take, List.isEmpty_map, mergeFront_map h, mergeBack_map h]
      split_ifs <;> simp

/-- The run of the mapped elements. -/
def Run.map {α β : Type} (f : α → β) (run : Run α) : Run β := ⟨run.start, run.items.map f, run.depth⟩

theorem mergeDeeper_map (depth threshold : Nat) (runs : List (Run α)) :
    mergeDeeper before' depth threshold (runs.map (Run.map f)) =
      ((mergeDeeper before depth threshold runs).1.map (Run.map f),
        (mergeDeeper before depth threshold runs).2) := by
  fun_induction mergeDeeper before depth threshold runs with
  | case1 threshold upper lower rest hdepth items threshold' hmerge ih =>
    rw [List.map_cons, List.map_cons, mergeDeeper,
      if_pos (show depth < (lower.map f).depth from hdepth)]
    simp only [Run.map, merge_map h, hmerge]
    exact ih
  | case2 threshold upper lower rest hdepth =>
    rw [List.map_cons, List.map_cons, mergeDeeper,
      if_neg (show ¬ depth < (lower.map f).depth from hdepth)]
  | case3 threshold runs hshort =>
    cases runs with
    | nil => simp [mergeDeeper]
    | cons upper runs =>
      cases runs with
      | nil => simp [mergeDeeper]
      | cons lower rest => exact absurd rfl (hshort upper lower rest)

theorem push_map (size threshold : Nat) (pending : List (Run α)) (items : List α) :
    push before' size threshold (pending.map (Run.map f)) (items.map f) =
      ((push before size threshold pending items).1.map (Run.map f),
        (push before size threshold pending items).2) := by
  cases pending with
  | nil => rfl
  | cons top rest =>
    have hdepth : boundaryDepth size (top.map f) (items.map f).length =
        boundaryDepth size top items.length := by
      simp only [boundaryDepth, Run.map, List.length_map]
    unfold push
    rw [List.map_cons]
    simp only [hdepth]
    rw [← List.map_cons, mergeDeeper_map h]
    cases hmerge : mergeDeeper before (boundaryDepth size top items.length) threshold
        (top :: rest) with
    | mk runs threshold' =>
      cases runs with
      | nil => rfl
      | cons run runs => simp [Run.map]

theorem collapse_map (threshold : Nat) (runs : List (Run α)) :
    collapse before' threshold (runs.map (Run.map f)) = (collapse before threshold runs).map f := by
  fun_induction collapse before threshold runs with
  | case1 threshold => simp [collapse]
  | case2 threshold run => simp [collapse, Run.map]
  | case3 threshold upper lower => simp [collapse, Run.map, merge_map h]
  | case4 threshold upper middle lower rest hlength items threshold' hmerge ih =>
    rw [List.map_cons, List.map_cons, List.map_cons, collapse]
    simp only [Run.map, List.length_map, merge_map h, hmerge]
    rw [if_pos hlength]
    exact ih
  | case5 threshold upper middle lower rest hlength items threshold' hmerge ih =>
    rw [List.map_cons, List.map_cons, List.map_cons, collapse]
    simp only [Run.map, List.length_map, merge_map h, hmerge]
    rw [if_neg hlength]
    exact ih

theorem collect_map (size least threshold : Nat) (pending : List (Run α)) (l : List α) :
    collect before' size least threshold (pending.map (Run.map f)) (l.map f) =
      (collect before size least threshold pending l).map f := by
  fun_induction collect before size least threshold pending l with
  | case1 threshold pending =>
    rw [List.map_nil, collect, collapse_map h]
  | case2 threshold pending x rest pushed ih =>
    rw [List.map_cons, collect, ← List.map_cons, nextRun_map h, push_map h]
    exact ih

end MemberOrder.RunSort

namespace MemberOrder

/-- A map along which the comparison answers the same can be applied before or after sorting. -/
theorem runSort_map {α β : Type} {before : α → α → Bool} {before' : β → β → Bool} {f : α → β}
    (h : ∀ x y, before' (f x) (f y) = before x y) (l : List α) :
    runSort before' (l.map f) = (runSort before l).map f := by
  unfold runSort
  rw [List.length_map]
  exact RunSort.collect_map h _ _ _ [] l

end MemberOrder
