import MemberOrder.Source.Basic

/-!
Delimiters: the brace that closes a brace, and how deep a stretch of source nests. Only code
characters count. A delimiter is given as a text; one that is not a single character never occurs.
-/

set_option autoImplicit false

namespace MemberOrder

/-- How much a character adds to the nesting of braces. -/
def Glyph.braceWeight (g : Glyph) : Int :=
  if g.isCodeChar '\x7b' then 1 else if g.isCodeChar '\x7d' then -1 else 0

namespace Source

/-- How many more braces a stretch opens than it closes. -/
def braceBalance (stretch : List Glyph) : Int :=
  stretch.foldr (fun g balance => g.braceWeight + balance) 0

/-- How far into the stretch the delimiter closes that leaves nothing open, when `depth` are open
before it. -/
def closeIn (opening closing : Text) : Nat → List Glyph → Option Nat
  | _, [] => none
  | depth, g :: rest =>
    if g.isCode && [g.char] == opening then (closeIn opening closing (depth + 1) rest).map (· + 1)
    else if g.isCode && [g.char] == closing then
      if depth ≤ 1 then some 0 else (closeIn opening closing (depth - 1) rest).map (· + 1)
    else (closeIn opening closing depth rest).map (· + 1)

/-- The position that closes the delimiter opened at `start`, if one opens there. -/
def closeOf? (src : Source) (opening closing : Text) (start : Nat) : Option Nat :=
  match src.glyphs.drop start with
  | [] => none
  | g :: rest =>
    if g.isCode && [g.char] == opening then
      (closeIn opening closing 1 rest).map (start + 1 + ·)
    else none

def closingBrace? (src : Source) (start : Nat) : Option Nat :=
  src.closeOf? ['\x7b'] ['\x7d'] start

def closingParenthesis? (src : Source) (start : Nat) : Option Nat :=
  src.closeOf? ['('] [')'] start

/-- How deep the source nests at `stop` when counted from `start`. -/
def braceDepth (src : Source) (start stop : Nat) : Int :=
  braceBalance (src.glyphs.extract start stop)

end Source

end MemberOrder
