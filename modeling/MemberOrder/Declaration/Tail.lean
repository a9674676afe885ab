import MemberOrder.Text.Blank
import MemberOrder.Text.Word

/-!
Declaration tails: what may stand between the parameters of a method and its body or semicolon,
namely white space and a `throws` clause.
-/

set_option autoImplicit false

namespace MemberOrder

/-- What ends the declaration of a method: the brace of its body, or a semicolon. -/
inductive Terminator
  | body
  | semicolon
deriving DecidableEq

namespace Terminator

def ofChar? : Char → Option Terminator
  | '\x7b' => some .body
  | ';' => some .semicolon
  | _ => none

/-- A character of the clause after `throws`. -/
def isClausePart (c : Char) : Bool :=
  Text.isNamePart c || Text.isBlank c || ['.', '<', '>', ','].contains c

def first? (t : Text) : Option Terminator := t.head?.bind ofChar?

/-- How far into the text the declaration ends, and with what. After `throws` comes white space
and at least one character more. -/
def find? (t : Text) : Option (Nat × Terminator) :=
  let gap := (t.takeWhile Text.isBlank).length
  let rest := t.drop gap
  match first? rest with
  | some terminator => some (gap, terminator)
  | none =>
    if "throws".toList.isPrefixOf rest then
      let clause := (rest.drop 6).takeWhile isClausePart
      if 2 ≤ clause.length && clause.head?.any Text.isBlank then
        (first? (rest.drop (6 + clause.length))).map fun terminator =>
          (gap + 6 + clause.length, terminator)
      else none
    else none

end Terminator

end MemberOrder
