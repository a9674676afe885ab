import MemberOrder.RunSort.Merge

/-!
Sorting by natural runs. The list is cut into runs that ascend already or descend strictly; short
ones are lengthened by binary insertion. Adjacent runs are merged in an order that follows how
deep the boundary between two runs lies in a balanced division of the list. The result depends on
nothing but the answers of the comparison, which need not be consistent.
-/

set_option autoImplicit false

namespace MemberOrder.RunSort

variable {α : Type} (before : α → α → Bool)

/-- Puts an element into a run, behind what it does not come before, found by bisection. -/
def insert (run : List α) (x : α) : List α :=
  run.insertIdx (bisect (fun i => !run[i]?.any (before x)) 0 run.length) x

/-- The longest start of the list along which each element relates to the one before it, and the
rest. -/
def chain (related : α → α → Bool) (last : α) : List α → List α × List α
  | [] => ([], [])
  | x :: rest =>
    if related last x then
      let (run, others) := chain related x rest
      (x :: run, others)
    else ([], x :: rest)

theorem length_chain (related : α → α → Bool) (last : α) (l : List α) :
    (chain related last l).1.length + (chain related last l).2.length = l.length := by
  induction l generalizing last with
  | nil => rfl
  | cons x rest ih =>
    simp only [chain]
    split
    · have := ih x
      simp only [List.length_cons]
      omega
    · simp

/-- The run that the list starts with, in ascending order, and the rest. -/
def firstRun : List α → List α × List α
  | [] => ([], [])
  | [x] => ([x], [])
  | x :: y :: rest =>
    if before y x then
      let (run, others) := chain (fun a b => before b a) y rest
      ((x :: y :: run).reverse, others)
    else
      let (run, others) := chain (fun a b => !before b a) y rest
      (x :: y :: run, others)

/-- The leading six bits of `size`, and one more if `odd` is one or any other bit is set. -/
def leadingBits (odd size : Nat) : Nat :=
  if size < 64 then size + odd else leadingBits (max odd (size % 2)) (size / 2)
termination_by size
decreasing_by omega

/-- The least length of a run in a list of `size` elements. -/
def minRun (size : Nat) : Nat := leadingBits 0 size

/-- The run that the list starts with, lengthened to `least` elements if it has fewer, and the
rest. -/
def nextRun (least : Nat) (l : List α) : List α × List α :=
  let (run, rest) := firstRun before l
  let missing := least - run.length
  ((rest.take missing).foldl (insert before) run, rest.drop missing)

/-- A run with the position at which it starts and the depth of the boundary behind it. -/
structure Run (α : Type) where
  start : Nat
  items : List α
  depth : Nat

/-- The first binary place at which `a / size` and `b / size` differ, looked for in as many places
as `fuel` says. -/
def firstDifference (size : Nat) : Nat → Nat → Nat → Nat
  | 0, _, _ => 0
  | fuel + 1, a, b =>
    if a / size = b / size then firstDifference size fuel (2 * a) (2 * b) + 1 else 1

/-- The depth of the boundary between a run and the `length` elements behind it: the first binary
place at which their midpoints differ, as parts of the list. -/
def boundaryDepth (size : Nat) (run : Run α) (length : Nat) : Nat :=
  let a := 2 * run.start + run.items.length
  firstDifference size size a (a + run.items.length + length)

/-- Merges the two topmost runs while the boundary between them lies deeper than `depth`. The
topmost run comes first. -/
def mergeDeeper (depth : Nat) : Nat → List (Run α) → List (Run α) × Nat
  | threshold, upper :: lower :: rest =>
    if depth < lower.depth then
      let (items, threshold) := merge before threshold lower.items upper.items
      mergeDeeper depth threshold (⟨lower.start, items, lower.depth⟩ :: rest)
    else (upper :: lower :: rest, threshold)
  | threshold, runs => (runs, threshold)
termination_by _ runs => runs.length

/-- Puts a new run on the pending ones. -/
def push (size : Nat) (threshold : Nat) (pending : List (Run α)) (items : List α) :
    List (Run α) × Nat :=
  match pending with
  | [] => ([⟨0, items, 0⟩], threshold)
  | top :: _ =>
    let depth := boundaryDepth size top items.length
    match mergeDeeper before depth threshold pending with
    | ([], threshold) => ([⟨0, items, 0⟩], threshold)
    | (run :: rest, threshold) =>
      (⟨run.start + run.items.length, items, 0⟩ :: { run with depth } :: rest, threshold)

/-- Merges all pending runs, of three the outer one that is the shorter with the middle one. -/
def collapse : Nat → List (Run α) → List α
  | _, [] => []
  | _, [run] => run.items
  | threshold, [upper, lower] => (merge before threshold lower.items upper.items).1
  | threshold, upper :: middle :: lower :: rest =>
    if lower.items.length < upper.items.length then
      let (items, threshold) := merge before threshold lower.items middle.items
      collapse threshold (upper :: ⟨lower.start, items, lower.depth⟩ :: rest)
    else
      let (items, threshold) := merge before threshold middle.items upper.items
      collapse threshold (⟨middle.start, items, middle.depth⟩ :: lower :: rest)
termination_by _ runs => runs.length

theorem length_nextRun_lt (least : Nat) (x : α) (l : List α) :
    (nextRun before least (x :: l)).2.length < (x :: l).length := by
  have hfirst : (firstRun before (x :: l)).2.length < (x :: l).length := by
    cases l with
    | nil => simp [firstRun]
    | cons y rest =>
      simp only [firstRun]
      split
      · have := length_chain (fun a b => before b a) y rest
        simp only [List.length_cons]
        omega
      · have := length_chain (fun a b => !before b a) y rest
        simp only [List.length_cons]
        omega
  simp only [nextRun, List.length_drop]
  omega

/-- Cuts the rest of the list into runs, each put on the pending ones. -/
def collect (size least : Nat) (threshold : Nat) (pending : List (Run α)) (l : List α) :
    List α :=
  match l with
  | [] => collapse before threshold pending
  | x :: rest =>
    let pushed := push before size threshold pending (nextRun before least (x :: rest)).1
    collect size least pushed.2 pushed.1 (nextRun before least (x :: rest)).2
termination_by l.length
decreasing_by exact length_nextRun_lt before least x rest

end MemberOrder.RunSort

namespace MemberOrder

/-- Sorts a list by a comparison that says whether an element comes before another. -/
def runSort {α : Type} (before : α → α → Bool) (l : List α) : List α :=
  RunSort.collect before l.length (RunSort.minRun l.length) RunSort.gallopGain [] l

end MemberOrder
