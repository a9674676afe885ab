/-!
Searching for the place where a predicate on positions stops to hold. Bisection halves an interval;
galloping starts at a hint and doubles its stride first, so that a place near the hint is found
soon. Where the predicate does not hold on an initial part and nowhere else, both still end, at a
place that the positions asked for determine.
-/

set_option autoImplicit false

namespace MemberOrder.RunSort

/-- Halves the interval from `lo` up to `hi` until it is empty. -/
def bisect (p : Nat → Bool) (lo hi : Nat) : Nat :=
  if lo < hi then
    let mid := lo + (hi - lo) / 2
    if p mid then bisect p (mid + 1) hi else bisect p lo mid
  else lo
termination_by hi - lo

/-- Strides of 1, 3, 7, … while they stay below `limit` and `goesOn` holds of them. Gives the last
stride at which it held, or zero, and the one at which it ended, at most `limit`. -/
def stride (goesOn : Nat → Bool) (limit last current : Nat) : Nat × Nat :=
  if current < limit then
    if goesOn current then stride goesOn limit current (2 * current + 1) else (last, current)
  else (last, limit)
termination_by limit - current

/-- The place below `size` where `p` stops to hold, looked for from `hint` on. -/
def gallop (p : Nat → Bool) (size hint : Nat) : Nat :=
  if p hint then
    let (last, current) := stride (fun k => p (hint + k)) (size - hint) 0 1
    bisect p (hint + last + 1) (hint + current)
  else
    let (last, current) := stride (fun k => !p (hint - k)) (hint + 1) 0 1
    bisect p (hint + 1 - current) (hint - last)

end MemberOrder.RunSort
