import MemberOrder.Source.Basic

/-!
Leading lines: the lines directly before a declaration that belong to it. They are blank, start
with an annotation, or hold no code.
-/

set_option autoImplicit false

namespace MemberOrder.Source

/-- The lines of a stretch, each with the line feed that ends it. -/
def linesOf : List Glyph → List (List Glyph)
  | [] => []
  | g :: rest =>
    if g.char = '\n' then [g] :: linesOf rest
    else match linesOf rest with
      | [] => [[g]]
      | line :: others => (g :: line) :: others

def isLeadingLine (line : List Glyph) : Bool :=
  line.all (!·.isSolid) || (line.dropWhile (·.isBlank)).head?.any (·.char == '@')

/-- The longest run of leading lines at the end of the stretch. The stretch is made of whole
lines, but for its first one where `wholeLine` does not hold, which then belongs to what is before
it. -/
def leadingIn (wholeLine : Bool) (stretch : List Glyph) : List Glyph :=
  let lines := if wholeLine then linesOf stretch else (linesOf stretch).drop 1
  (lines.reverse.takeWhile isLeadingLine).reverse.flatten

/-- The leading lines of a declaration at `start`, none of them from before `floor`. -/
def leadingLines (src : Source) (floor start : Nat) : Text :=
  let wholeLine := match floor with
    | 0 => true
    | i + 1 => src.text[i]? == some '\n'
  (leadingIn wholeLine (src.glyphs.extract floor start)).map (·.char)

end MemberOrder.Source
