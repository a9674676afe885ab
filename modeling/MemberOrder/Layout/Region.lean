import MemberOrder.Declaration.Initializer
import MemberOrder.Declaration.TypeHeader

/-!
Regions of a class body in which no method of the class is declared: nested types and initializer
blocks, each from the start of its line to behind its closing brace.
-/

set_option autoImplicit false

namespace MemberOrder

/-- The body of a class: its name and its two braces. -/
structure ClassBody where
  name : Text
  openBrace : Nat
  closeBrace : Nat
deriving DecidableEq

/-- A stretch of positions from `start` up to `stop`. -/
structure Region where
  start : Nat
  stop : Nat
deriving DecidableEq

namespace Region

def contains (r : Region) (i : Nat) : Bool := decide (r.start ≤ i) && decide (i < r.stop)

/-- Order by start, then by end. -/
def comesBefore (r s : Region) : Bool :=
  decide (r.start < s.start) || (r.start == s.start && decide (r.stop ≤ s.stop))

/-- The first of the regions that holds the position. -/
def holding? (regions : List Region) (i : Nat) : Option Region := regions.find? (·.contains i)

end Region

namespace ClassBody

variable (src : Source) (body : ClassBody)

/-- The brace that closes the one at `brace`, if it stands before the end of the body. -/
def innerClose? (brace : Nat) : Option Nat :=
  (src.closingBrace? brace).filter fun close => decide (close < body.closeBrace)

/-- The start of the line that a position is on, not before the body. -/
def lineStart (i : Nat) : Nat :=
  max (i - ((src.text.take i).reverse.takeWhile (· != '\n')).length) (body.openBrace + 1)

/-- The regions of nested types, given their headers. After a type the search goes on behind it. -/
def typeRegions (resume : Nat) : List TypeHeader → List Region
  | [] => []
  | header :: rest =>
    if header.start < resume then typeRegions resume rest
    else match (header.openBrace? src body.closeBrace).bind (body.innerClose? src) with
      | some close => ⟨body.lineStart src header.start, close + 1⟩ :: typeRegions (close + 1) rest
      | none => typeRegions header.stop rest

/-- May a statement start behind this character? -/
def isBoundary (c : Char) : Bool := c == ';' || c == '\x7b' || c == '\x7d'

/-- The regions of initializer blocks, given their heads, outside the regions `taken`. Where
`atBoundary` holds, a block must follow a statement or brace. -/
def initializerRegions (taken : List Region) (atBoundary : Bool) (resume : Nat) :
    List InitializerHead → List Region
  | [] => []
  | head :: rest =>
    if head.start < resume then initializerRegions taken atBoundary resume rest
    else
      let admitted := src.isCodeAt head.brace && (Region.holding? taken head.brace).isNone
        && (!atBoundary || (src.lastSolid? body.openBrace head.brace).any isBoundary)
      match (if admitted then body.innerClose? src head.brace else none) with
      | some close =>
        ⟨head.start, close + 1⟩ :: initializerRegions taken atBoundary (close + 1) rest
      | none => initializerRegions taken atBoundary head.stop rest

/-- All regions in which no method is looked for, in order. -/
def skippedRegions : List Region :=
  let first := body.openBrace + 1
  let types := body.typeRegions src first
    (TypeHeader.allBetween src.text first body.closeBrace)
  let statics := body.initializerRegions src types false first
    (InitializerHead.staticBetween src.text first body.closeBrace)
  let instances := body.initializerRegions src (types ++ statics) true first
    (InitializerHead.instanceBetween src.text first body.closeBrace)
  (types ++ statics ++ instances).mergeSort Region.comesBefore

end ClassBody

end MemberOrder
