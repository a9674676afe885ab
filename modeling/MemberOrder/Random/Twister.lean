/-!
The Mersenne twister with 32-bit output and a period of 2^19937 - 1, seeded by a whole number.
-/

set_option autoImplicit false

namespace MemberOrder.Random

/-- The number of words of the state. -/
def stateSize : Nat := 624

/-- The state words, and how many of them have been given out since they were last made. -/
structure Twister where
  words : Array UInt32
  used : Nat

namespace Twister

/-- The state made from one word. -/
def initialWords (seed : UInt32) : Array UInt32 :=
  (List.range (stateSize - 1)).foldl
    (fun (words : Array UInt32) i =>
      let last : UInt32 := words.getD i 0
      let factor : UInt32 := 1812433253
      words.push (factor * (last ^^^ (last >>> 30)) + UInt32.ofNat (i + 1)))
    #[seed]

/-- Mixes `term` into the word at `i` by means of the word before it. -/
def stir (factor : UInt32) (words : Array UInt32) (i : Nat) (combine : UInt32 → UInt32) :
    Array UInt32 :=
  let last := words.getD (i - 1) 0
  words.setIfInBounds i (combine (words.getD i 0 ^^^ ((last ^^^ (last >>> 30)) * factor)))

/-- The next position to stir; behind the last the first word takes the value of the last. -/
def advance (words : Array UInt32) (i : Nat) : Array UInt32 × Nat :=
  if i + 1 < stateSize then (words, i + 1)
  else (words.setIfInBounds 0 (words.getD (stateSize - 1) 0), 1)

/-- Stirs a key into the state, word after word for as many steps as given. -/
def stirKey (key : Array UInt32) : Nat → Array UInt32 → Nat → Nat → Array UInt32 × Nat
  | 0, words, i, _ => (words, i)
  | steps + 1, words, i, j =>
    let words := stir 1664525 words i fun w => w + key.getD j 0 + UInt32.ofNat j
    let (words, i) := advance words i
    stirKey key steps words i (if j + 1 < key.size then j + 1 else 0)

/-- Stirs the positions into the state. -/
def stirPositions : Nat → Array UInt32 → Nat → Array UInt32
  | 0, words, _ => words
  | steps + 1, words, i =>
    let words := stir 1566083941 words i fun w => w - UInt32.ofNat i
    let (words, i) := advance words i
    stirPositions steps words i

def ofKey (key : Array UInt32) : Twister :=
  let (words, i) := stirKey key (max stateSize key.size) (initialWords 19650218) 1 0
  let words := stirPositions (stateSize - 1) words i
  ⟨words.setIfInBounds 0 0x80000000, stateSize⟩

/-- The 32-bit words of a number, the least first; zero has one. -/
def keyWords (n : Nat) : List UInt32 :=
  if n < 0x100000000 then [UInt32.ofNat n]
  else UInt32.ofNat (n % 0x100000000) :: keyWords (n / 0x100000000)
termination_by n
decreasing_by omega

/-- A number and its negative seed the same state. -/
def ofSeed (seed : Int) : Twister := ofKey (keyWords seed.natAbs).toArray

/-- Makes all state words anew, in place and in order. -/
def refresh (words : Array UInt32) : Array UInt32 :=
  (List.range stateSize).foldl
    (fun words i =>
      let y := (words.getD i 0 &&& 0x80000000)
        ||| (words.getD ((i + 1) % stateSize) 0 &&& 0x7fffffff)
      let twist : UInt32 := if y &&& 1 = 0 then 0 else 0x9908b0df
      words.setIfInBounds i (words.getD ((i + 397) % stateSize) 0 ^^^ (y >>> 1) ^^^ twist))
    words

def temper (y : UInt32) : UInt32 :=
  let y := y ^^^ (y >>> 11)
  let y := y ^^^ ((y <<< 7) &&& 0x9d2c5680)
  let y := y ^^^ ((y <<< 15) &&& 0xefc60000)
  y ^^^ (y >>> 18)

/-- The next 32 random bits. -/
def next (twister : Twister) : UInt32 × Twister :=
  if twister.used < stateSize then
    (temper (twister.words.getD twister.used 0), { twister with used := twister.used + 1 })
  else
    let words := refresh twister.words
    (temper (words.getD 0 0), ⟨words, 1⟩)

/-- How often a draw is tried again before zero is taken. A draw is in range with a probability of
at least one half. -/
def maxTries : Nat := 4096

/-- Draws `bits` bits until they make a number below `bound`. -/
def drawBelow (bound bits : Nat) : Nat → Twister → Nat × Twister
  | 0, twister => (0, twister)
  | tries + 1, twister =>
    let (word, twister) := twister.next
    let value := word.toNat >>> (32 - bits)
    if value < bound then (value, twister) else drawBelow bound bits tries twister

/-- A number below `bound`, each as likely as any other, for bounds below 2^32. -/
def below (bound : Nat) (twister : Twister) : Nat × Twister :=
  drawBelow bound (bound.log2 + 1) maxTries twister

end Twister

end MemberOrder.Random
