/-!
Tables of code points: ascending ranges, and runs of code points that a mapping moves by one
common distance.
-/

set_option autoImplicit false

namespace MemberOrder.Text

/-- Is `n` in one of the ranges `(first, last)`, which stand in ascending order? -/
def inRanges (n : Nat) : List (Nat × Nat) → Bool
  | [] => false
  | (first, last) :: rest =>
    if n < first then false else decide (n ≤ last) || inRanges n rest

/-- The code points `first`, `first + step`, … up to `last`, each moved by `shift`. -/
structure ShiftRun where
  first : Nat
  last : Nat
  step : Nat
  shift : Int

namespace ShiftRun

def contains (run : ShiftRun) (n : Nat) : Bool :=
  decide (run.first ≤ n) && decide (n ≤ run.last) && (n - run.first) % run.step == 0

def move (run : ShiftRun) (n : Nat) : Char := Char.ofNat (n + run.shift).toNat

end ShiftRun

/-- What a case mapping makes of one code point: a sequence of its own, a moved code point, or the
code point itself. -/
def mapCodePoint (runs : List ShiftRun) (sequences : List (Nat × List Nat)) (c : Char) :
    List Char :=
  match sequences.lookup c.toNat with
  | some codes => codes.map Char.ofNat
  | none =>
    match runs.find? (·.contains c.toNat) with
    | some run => [run.move c.toNat]
    | none => [c]

end MemberOrder.Text
