import MemberOrder.Text.Blank
import MemberOrder.Text.Word

/-!
Access levels, from the most to the least accessible. A declaration has the level of the first of
the three access words that stands in it as a word of its own before white space; with none of them
it is accessible in its package.
-/

set_option autoImplicit false

namespace MemberOrder

inductive Access
  | publicAccess
  | protectedAccess
  | packageAccess
  | privateAccess
deriving DecidableEq

namespace Access

def all : List Access := [.publicAccess, .protectedAccess, .packageAccess, .privateAccess]

def name : Access → String
  | .publicAccess => "public"
  | .protectedAccess => "protected"
  | .packageAccess => "package"
  | .privateAccess => "private"

def ofName? (name : String) : Option Access := all.find? (·.name == name)

/-- The most accessible level comes first. -/
def rank : Access → Nat
  | .publicAccess => 0
  | .protectedAccess => 1
  | .packageAccess => 2
  | .privateAccess => 3

instance : LT Access := ⟨fun a b => a.rank < b.rank⟩

instance : LE Access := ⟨fun a b => a.rank ≤ b.rank⟩

instance (a b : Access) : Decidable (a < b) := inferInstanceAs (Decidable (a.rank < b.rank))

instance (a b : Access) : Decidable (a ≤ b) := inferInstanceAs (Decidable (a.rank ≤ b.rank))

/-- Does `word` stand in the text before white space, and not as the end of a longer name? -/
def hasWord (word : Text) (before : Option Char) : Text → Bool
  | [] => false
  | c :: rest =>
    (!(before.any fun b => Text.isNamePart b || b == '.') && word.isPrefixOf (c :: rest)
        && ((c :: rest).drop word.length).head?.any Text.isBlank)
      || hasWord word (some c) rest

def ofDeclaration (declaration : Text) : Access :=
  ([.publicAccess, .protectedAccess, .privateAccess].find? fun level =>
    hasWord level.name.toList none declaration).getD .packageAccess

end Access

end MemberOrder
