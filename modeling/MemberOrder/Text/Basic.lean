/-!
Texts. A text is a list of Unicode scalar values, which is what decoded bytes can hold; every
position, length and index in this library counts them. The code points U+D800 to U+DFFF are left
out: texts that were never decoded and may hold them are raw texts. Cutting a list at a separator
and joining the pieces again is for lists of anything.
-/

set_option autoImplicit false

namespace MemberOrder

abbrev Text := List Char

namespace Text

/-- Does `part` stand somewhere in the text? -/
def hasPart (part : Text) : Text → Bool
  | [] => part.isEmpty
  | c :: rest => part.isPrefixOf (c :: rest) || hasPart part rest

section Pieces

variable {α : Type}

/-- The pieces of a list between the occurrences of `separator`; there is always at least one. -/
def pieces [DecidableEq α] (separator : α) : List α → List (List α)
  | [] => [[]]
  | c :: rest =>
    if c = separator then [] :: pieces separator rest
    else match pieces separator rest with
      | [] => [[c]]
      | piece :: others => (c :: piece) :: others

/-- What stands after the last occurrence of `separator`, or all of the list. -/
def lastPiece [DecidableEq α] (separator : α) (t : List α) : List α :=
  (pieces separator t).getLast?.getD []

/-- The pieces with `separator` between each two of them. -/
def joined (separator : List α) : List (List α) → List α
  | [] => []
  | [piece] => piece
  | piece :: next :: others => piece ++ separator ++ joined separator (next :: others)

end Pieces

/-- The text with a line feed for every line end, be it a carriage return, a line feed or both. -/
def withLineFeeds : Text → Text
  | [] => []
  | '\r' :: '\n' :: rest => '\n' :: withLineFeeds rest
  | '\r' :: rest => '\n' :: withLineFeeds rest
  | c :: rest => c :: withLineFeeds rest

/-- The text with blanks after it up to the given width. -/
def padRight (width : Nat) (t : Text) : Text := t ++ List.replicate (width - t.length) ' '

/-- The text with blanks before it up to the given width. -/
def padLeft (width : Nat) (t : Text) : Text := List.replicate (width - t.length) ' ' ++ t

/-- Order by code point, a proper initial part first. -/
def compareCodePoints : Text → Text → Ordering
  | [], [] => .eq
  | [], _ :: _ => .lt
  | _ :: _, [] => .gt
  | c :: rest, d :: others => (compare c.toNat d.toNat).then (compareCodePoints rest others)

end Text

end MemberOrder
