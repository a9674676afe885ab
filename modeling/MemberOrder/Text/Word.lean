import MemberOrder.Text.Basic
import MemberOrder.Text.Alphanumeric

/-!
Words and identifiers. A word is made of alphanumeric characters and underscores; an identifier
starts with an ASCII letter, an underscore or a dollar sign and goes on with word characters and
dollar signs, as far as they reach.
-/

set_option autoImplicit false

namespace MemberOrder.Text

def isWordChar (c : Char) : Bool := isAlphanumeric c || c == '_'

/-- A character that continues an identifier. -/
def isNamePart (c : Char) : Bool := isWordChar c || c == '$'

/-- A character that starts an identifier. -/
def isNameStart (c : Char) : Bool := c.isAlpha || c == '_' || c == '$'

/-- The identifier at the start of the text, taken as long as it goes. -/
def identifier? : Text → Option Text
  | [] => none
  | c :: rest => if isNameStart c then some (c :: rest.takeWhile isNamePart) else none

/-- The maximal runs of characters that satisfy `p`, in order. -/
def runsOf (p : Char → Bool) : Text → List Text
  | [] => []
  | c :: rest =>
    if p c then
      match rest, runsOf p rest with
      | d :: _, run :: others => if p d then (c :: run) :: others else [c] :: run :: others
      | _, others => [c] :: others
    else runsOf p rest

end MemberOrder.Text
