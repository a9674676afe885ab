import MemberOrder.Text.Basic

/-!
Searching a stretch of text for things that begin at a line start, or after a character that lets
them begin. Every search gives what it finds in order of position.
-/

set_option autoImplicit false

namespace MemberOrder.Text

/-- What `recognise` finds at the positions of the text that `begins` allows after the character
before them. The text starts at `position`, after the character `before`. -/
def findAll {α : Type} (begins : Option Char → Bool) (recognise : Nat → Text → Option α)
    (before : Option Char) (position : Nat) : Text → List α
  | [] => []
  | c :: rest =>
    let found := if begins before then recognise position (c :: rest) else none
    found.toList ++ findAll begins recognise (some c) (position + 1) rest

/-- A line starts at the beginning of a text and after every line feed. -/
def beginsLine : Option Char → Bool
  | none => true
  | some c => c == '\n'

/-- The character before a position, if there is one. -/
def charBefore? (t : Text) (position : Nat) : Option Char :=
  match position with
  | 0 => none
  | position + 1 => t[position]?

/-- The search of `findAll` over the stretch from `start` up to `stop`. -/
def findBetween {α : Type} (begins : Option Char → Bool) (recognise : Nat → Text → Option α)
    (t : Text) (start stop : Nat) : List α :=
  findAll begins recognise (t.charBefore? start) start (t.extract start stop)

end MemberOrder.Text
