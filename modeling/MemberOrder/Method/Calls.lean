import MemberOrder.Source.Basic
import MemberOrder.Text.Word

/-!
The calls in a stretch of source: identifiers in code that, but for white space, stand before an
opening parenthesis. Words that open a statement are not calls.
-/

set_option autoImplicit false

namespace MemberOrder.Source

/-- Words that stand before a parenthesis without calling anything. -/
def statementWords : List Text :=
  ["if", "for", "while", "switch", "catch", "synchronized", "new", "return"].map String.toList

/-- The name called at the start of the stretch, which follows the character `before`. -/
def callAt? (before : Option Char) (stretch : List Glyph) : Option Text :=
  if before.any Text.isNamePart || !stretch.head?.any (·.isCode) then none
  else
    let text := stretch.map (·.char)
    (Text.identifier? text).filter fun name =>
      ((text.drop name.length).dropWhile Text.isBlank).head? == some '('
        && !statementWords.contains name

/-- The names called in the stretch, with repetitions. -/
def callsIn (before : Option Char) : List Glyph → List Text
  | [] => []
  | g :: rest => (callAt? before (g :: rest)).toList ++ callsIn (some g.char) rest

/-- The names called from `start` up to `stop`, each once, in order of first occurrence. -/
def calledNames (src : Source) (start stop : Nat) : List Text :=
  let before := match start with
    | 0 => none
    | i + 1 => (src.glyphs[i]?).map (·.char)
  (callsIn before (src.glyphs.extract start stop)).eraseDups

end MemberOrder.Source
