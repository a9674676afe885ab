import MemberOrder.RunSort.Search

/-!
Merging two runs into one. A merge works from the front of both runs or from the back, whichever
run is the shorter. It goes one element at a time until one run has won often enough in a row, then
gallops until neither run wins by much any more. How often is enough is a threshold that falls
while galloping pays and rises each time it stops; it is handed on from merge to merge.
-/

set_option autoImplicit false

namespace MemberOrder.RunSort

variable {α : Type} (before : α → α → Bool)

/-- The end of both runs that a merge works from. A run is given with the element at that end
first. -/
inductive Side
  | front
  | back

/-- How a merge goes on: element by element, after so many wins in a row of the first and of the
second run, or by galloping, for the first time or once more. -/
inductive Pace
  | stepping (first second : Nat)
  | galloping (fresh : Bool)

/-- A win of at least this many elements keeps a merge galloping. -/
def gallopGain : Nat := 7

namespace Side

/-- Does the second run give its element `b` before the first gives `a`? -/
def takesSecond (side : Side) (a b : α) : Bool :=
  match side with
  | .front => before b a
  | .back => !before b a

/-- The merge of what is left when one run is empty, or the run that is kept for last has a single
element left. -/
def settled? (side : Side) (a b : List α) : Option (List α) :=
  match side, a, b with
  | _, a, [] => some a
  | _, [], b => some b
  | .front, [x], b => some (b ++ [x])
  | .back, a, [y] => some (a ++ [y])
  | _, _, _ => none

/-- How many elements the first run gives before the second gives `key`. -/
def gainOfFirst (side : Side) (key : α) (a : List α) : Nat :=
  match side with
  | .front => gallop (fun i => !a[i]?.any (before key)) a.length 0
  | .back =>
    a.length - gallop (fun i => !(a[a.length - 1 - i]?).any (before key)) a.length (a.length - 1)

/-- How many elements the second run gives before the first gives `key`. -/
def gainOfSecond (side : Side) (key : α) (b : List α) : Nat :=
  match side with
  | .front => gallop (fun i => b[i]?.any (before · key)) b.length 0
  | .back =>
    b.length - gallop (fun i => (b[b.length - 1 - i]?).any (before · key)) b.length (b.length - 1)

/-- Merges two runs that are not settled. Gives the merged run, with the threshold to hand on. -/
def mergeAt (side : Side) (pace : Pace) (threshold : Nat) (a b : List α) : List α × Nat :=
  match a, b with
  | [], b => (b, threshold)
  | a, [] => (a, threshold)
  | x :: as, y :: bs =>
    match pace with
    | .stepping first second =>
      if side.takesSecond before x y then
        match side.settled? (x :: as) bs with
        | some rest => (y :: rest, threshold)
        | none =>
          let next := if threshold ≤ second + 1 then .galloping true else .stepping 0 (second + 1)
          let (rest, threshold) := mergeAt side next threshold (x :: as) bs
          (y :: rest, threshold)
      else
        match side.settled? as (y :: bs) with
        | some rest => (x :: rest, threshold)
        | none =>
          let next := if threshold ≤ first + 1 then .galloping true else .stepping (first + 1) 0
          let (rest, threshold) := mergeAt side next threshold as (y :: bs)
          (x :: rest, threshold)
    | .galloping fresh =>
      let threshold := if fresh || threshold ≤ 1 then threshold else threshold - 1
      let gain := side.gainOfFirst before y (x :: as)
      let won := (x :: as).take gain
      match side.settled? ((x :: as).drop gain) (y :: bs) with
      | some rest => (won ++ rest, threshold)
      | none =>
        match side.settled? ((x :: as).drop gain) bs with
        | some rest => (won ++ y :: rest, threshold)
        | none =>
          match _h : (x :: as).drop gain with
          | [] => (won ++ y :: bs, threshold)
          | x' :: as' =>
            let gain' := side.gainOfSecond before x' bs
            let won' := won ++ y :: bs.take gain'
            match side.settled? (x' :: as') (bs.drop gain') with
            | some rest => (won' ++ rest, threshold)
            | none =>
              match side.settled? as' (bs.drop gain') with
              | some rest => (won' ++ x' :: rest, threshold)
              | none =>
                if gallopGain ≤ gain || gallopGain ≤ gain' then
                  let (rest, threshold) := mergeAt side (.galloping false) threshold as'
                    (bs.drop gain')
                  (won' ++ x' :: rest, threshold)
                else
                  let (rest, threshold) := mergeAt side (.stepping 0 0) (threshold + 1) as'
                    (bs.drop gain')
                  (won' ++ x' :: rest, threshold)
termination_by a.length + b.length
decreasing_by
  all_goals simp_wf
  all_goals first
    | omega
    | (have h := congrArg List.length _h
       simp only [List.length_drop, List.length_cons] at h ⊢
       omega)

end Side

/-- Merges two runs from the front. The second run is known to give the first element. -/
def mergeFront (threshold : Nat) (a b : List α) : List α × Nat :=
  match b with
  | [] => (a, threshold)
  | y :: bs =>
    match Side.front.settled? a bs with
    | some rest => (y :: rest, threshold)
    | none =>
      let (rest, threshold) := Side.front.mergeAt before (.stepping 0 0) threshold a bs
      (y :: rest, threshold)

/-- Merges two runs from the back. The first run is known to give the last element. -/
def mergeBack (threshold : Nat) (a b : List α) : List α × Nat :=
  match a.reverse with
  | [] => (b, threshold)
  | x :: as =>
    match Side.back.settled? as b.reverse with
    | some rest => ((x :: rest).reverse, threshold)
    | none =>
      let (rest, threshold) := Side.back.mergeAt before (.stepping 0 0) threshold as b.reverse
      ((x :: rest).reverse, threshold)

/-- Merges two runs. What the first has before the start of the second, and what the second has
after the end of the first, is in place already. -/
def merge (threshold : Nat) (a b : List α) : List α × Nat :=
  match b.head?, a.getLast? with
  | some y, some x =>
    let lead := gallop (fun i => !a[i]?.any (before y)) a.length 0
    let a' := a.drop lead
    if a'.isEmpty then (a ++ b, threshold)
    else
      let count := gallop (fun i => b[i]?.any (before · x)) b.length (b.length - 1)
      let b' := b.take count
      if b'.isEmpty then (a ++ b, threshold)
      else
        let (merged, threshold) :=
          if a'.length ≤ b'.length then mergeFront before threshold a' b'
          else mergeBack before threshold a' b'
        (a.take lead ++ merged ++ b.drop count, threshold)
  | _, _ => (a ++ b, threshold)

end MemberOrder.RunSort
