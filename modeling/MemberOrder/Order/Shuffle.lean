import MemberOrder.Random.Twister

/-!
Shuffling: each place from the last to the second trades its element with the one at an index drawn
for it. The indexes come from a seeded generator or from a given list.
-/

set_option autoImplicit false

namespace MemberOrder

/-- Where random indexes come from. -/
inductive IndexSource
  | seeded (twister : Random.Twister)
  | listed (answers : List Int)

namespace IndexSource

def ofSeed (seed : Int) : IndexSource := .seeded (Random.Twister.ofSeed seed)

/-- An index for a list of `bound` elements. A given list is read as it is, whatever the bound, and
gives zero when it is used up. -/
def draw (bound : Nat) : IndexSource → Int × IndexSource
  | .seeded twister =>
    let (value, twister) := twister.below bound
    (value, .seeded twister)
  | .listed [] => (0, .listed [])
  | .listed (answer :: rest) => (answer, .listed rest)

end IndexSource

namespace Shuffle

/-- The position that an index names in a list of `size` elements; below zero it counts from the
end. -/
def position? (size : Nat) (index : Int) : Option Nat :=
  let i := if index < 0 then index + size else index
  if 0 ≤ i ∧ i < size then some i.toNat else none

def swap {α : Type} (items : List α) (i j : Nat) : List α :=
  match items[i]?, items[j]? with
  | some x, some y => (items.set i y).set j x
  | _, _ => items

/-- Trades the element at each place from `place` down to the second. Gives nothing when an index
names no position. -/
def from? {α : Type} : Nat → IndexSource → List α → Option (List α × IndexSource)
  | 0, source, items => some (items, source)
  | place + 1, source, items =>
    let (index, source) := source.draw (place + 2)
    (position? items.length index).bind fun j => from? place source (swap items (place + 1) j)

end Shuffle

/-- A list in random order, with what is left of the index source. -/
def shuffle? {α : Type} (source : IndexSource) (items : List α) :
    Option (List α × IndexSource) :=
  Shuffle.from? (items.length - 1) source items

end MemberOrder
