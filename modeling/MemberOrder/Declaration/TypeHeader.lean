import MemberOrder.Declaration.LineStart
import MemberOrder.Source.Delimiter
import MemberOrder.Text.Word

/-!
Type headers: the words `class`, `interface` or `enum`, white space and a name. A header starts a
type where its characters are code and the first brace or semicolon after them opens a body.
-/

set_option autoImplicit false

namespace MemberOrder

inductive TypeKind
  | classType
  | interfaceType
  | enumType
deriving DecidableEq

def TypeKind.keyword : TypeKind → Text
  | .classType => "class".toList
  | .interfaceType => "interface".toList
  | .enumType => "enum".toList

structure TypeHeader where
  kind : TypeKind
  name : Text
  start : Nat
  stop : Nat
deriving DecidableEq

namespace TypeHeader

/-- The header of the given kind at the start of the text, which stands at `position`. -/
def ofKind? (kind : TypeKind) (position : Nat) (t : Text) : Option TypeHeader :=
  if kind.keyword.isPrefixOf t then
    let rest := t.drop kind.keyword.length
    let gap := rest.takeWhile Text.isBlank
    if gap.isEmpty then none
    else (Text.identifier? (rest.drop gap.length)).map fun name =>
      ⟨kind, name, position, position + kind.keyword.length + gap.length + name.length⟩
  else none

def at? (position : Nat) (t : Text) : Option TypeHeader :=
  [.classType, .interfaceType, .enumType].findSome? fun kind => ofKind? kind position t

/-- A header does not continue a name or a qualified name. -/
def begins : Option Char → Bool
  | none => true
  | some c => !(Text.isNamePart c || c == '.')

/-- The headers that start from `start` up to `stop`, also those inside another header. -/
def allBetween (t : Text) (start stop : Nat) : List TypeHeader :=
  t.findBetween begins at? start stop

/-- The headers that start at `resume` or later and not inside an earlier one of them. -/
def apart (resume : Nat) : List TypeHeader → List TypeHeader
  | [] => []
  | header :: rest =>
    if header.start < resume then apart resume rest else header :: apart header.stop rest

/-- The brace that opens the body of the type, found before `limit`. -/
def openBrace? (src : Source) (limit : Nat) (header : TypeHeader) : Option Nat :=
  if src.isCodeBetween header.start header.stop then
    (src.firstCode? ['\x7b', ';'] header.stop limit).filter fun i => src.text[i]? == some '\x7b'
  else none

end TypeHeader

namespace Source

/-- The name and opening brace of the class that a source declares first. -/
def firstClass? (src : Source) : Option (Text × Nat) :=
  ((TypeHeader.apart 0 (TypeHeader.allBetween src.text 0 src.length)).filter
    (·.kind == .classType)).findSome? fun header =>
      (header.openBrace? src src.length).map fun brace => (header.name, brace)

end Source

end MemberOrder
