import MemberOrder.Source.Delimiter

/-!
Queries about a source at positions that any integer may name. Below zero a position counts from
the end of the source. A query that looks beyond either end says where it looked.
-/

set_option autoImplicit false

namespace MemberOrder

/-- What a query looked up beyond the ends of the source: a character, or whether it is code. -/
inductive LookupFault
  | character
  | classification
deriving DecidableEq

def LookupFault.message : LookupFault → String
  | .character => "string index out of range"
  | .classification => "list index out of range"

namespace Source

/-- The glyphs at the positions from `start` up to `stop`, as far as they lie in the source. -/
def stretch (src : Source) (start stop : Int) : List Glyph :=
  let size : Int := src.length
  src.glyphs.extract (size + max start (-size)).toNat (size + min stop 0).toNat
    ++ src.glyphs.extract (max start 0).toNat (min stop size).toNat

/-- Does a look at each position from `start` up to `stop` leave the source at its end? -/
def overruns (src : Source) (start stop : Int) : Bool :=
  decide (start < stop) && (decide ((src.length : Int) < stop))

/-- Does a look at each position from `start` up to `stop` leave the source at its beginning? -/
def underruns (src : Source) (start stop : Int) : Bool :=
  decide (start < stop) && (decide (start < -(src.length : Int)))

/-- Positions below zero hold no code. -/
def isCodeQuery (src : Source) (i : Int) : Bool := decide (0 ≤ i) && src.isCodeAt i.toNat

def rangeIsCode (src : Source) (start stop : Int) : Bool :=
  decide (stop ≤ start) ||
    (decide (0 ≤ start) && decide (stop ≤ src.length) && src.isCodeBetween start.toNat stop.toNat)

/-- Is all code from `start` up to `stop` white space? -/
def rangeIsMute (src : Source) (start stop : Int) : Except LookupFault Bool :=
  if src.underruns start stop then .error .character
  else if (src.glyphs.extract (max start 0).toNat (min stop src.length).toNat).any (·.isSolid) then
    .ok false
  else if src.overruns start stop then .error .character
  else .ok true

def matchingClose? (src : Source) (opening closing : Text) (start : Int) : Option Nat :=
  if 0 ≤ start then src.closeOf? opening closing start.toNat else none

def depthBetween (src : Source) (start stop : Int) : Except LookupFault Int :=
  if src.underruns start stop || src.overruns start stop then .error .classification
  else .ok (braceBalance (src.stretch start stop))

def nextCode? (src : Source) (characters : Text) (start stop : Int) :
    Except LookupFault (Option Int) :=
  if src.underruns start stop then .error .classification
  else
    match (src.stretch start stop).findIdx? fun g => g.isCode && characters.contains g.char with
    | some offset => .ok (some (start + offset))
    | none => if src.overruns start stop then .error .classification else .ok none

/-- The nearest solid character before `stop`, not looking below `start`. -/
def previousSolid? (src : Source) (start stop : Int) : Except LookupFault (Option Char) :=
  if src.overruns start stop then .error .character
  else
    match (src.stretch start stop).reverse.find? (·.isSolid) with
    | some g => .ok (some g.char)
    | none => if src.underruns start stop then .error .character else .ok none

end Source

end MemberOrder
