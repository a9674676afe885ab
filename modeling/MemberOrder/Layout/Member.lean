import MemberOrder.Declaration.MethodHead
import MemberOrder.Declaration.Tail
import MemberOrder.Layout.Leading
import MemberOrder.Layout.Region
import MemberOrder.Method.Basic
import MemberOrder.Method.Calls

/-!
The methods of a class body. Every head at nesting depth one and outside the skipped regions is
tried in order; one that completes to a declaration is a method, and the search goes on behind it.
A declaration that continues an earlier line is no method of its own and stays in place.
-/

set_option autoImplicit false

namespace MemberOrder

/-- Words that cannot name a method. -/
def reservedWords : List Text :=
  ["assert", "case", "catch", "class", "do", "else", "enum", "finally", "for", "if", "instanceof",
   "interface", "new", "return", "super", "switch", "synchronized", "this", "throw", "try",
   "while"].map String.toList

/-- Words that make what precedes a name part of a statement. -/
def statementMarkers : List Text :=
  ["return", "new", "else", "throw", "case"].map String.toList

/-- What the search for methods finds: a method, or a declaration that stays in place. -/
inductive Finding
  | method (m : Method)
  | inPlace (signature : Text)
deriving DecidableEq

namespace ClassBody

variable (src : Source) (body : ClassBody) (skipped : List Region)

/-- Takes in a comment that follows on the line, if the line ends in code and within the body. -/
def afterTrailingComment (stop : Nat) : Nat :=
  let line := (src.glyphs.extract stop body.closeBrace).takeWhile (·.char != '\n')
  let lineEnd := stop + line.length
  if lineEnd < body.closeBrace && !line.all (·.isBlank) && line.all (!·.isSolid)
      && src.isCodeAt lineEnd then lineEnd
  else stop

/-- The end of what lies before a declaration and cannot lead it. -/
def leadingFloor (previous start : Nat) : Nat :=
  skipped.foldl (fun floor r => if r.stop ≤ start then max floor r.stop else floor) previous

/-- May the head name a method, going by its words alone? -/
def admitsHead (head : MethodHead) : Bool :=
  !reservedWords.contains head.name
    && !(Text.runsOf (fun c => c.isAlpha || c == '_') head.modifiers).any statementMarkers.contains
    && src.isCodeBetween head.nameStart (head.parenthesis + 1)

/-- A declaration ends: where, with what, and after which closing parenthesis. -/
structure DeclarationEnd where
  parenthesis : Nat
  position : Nat
  terminator : Terminator

def declarationEnd? (head : MethodHead) : Option DeclarationEnd := do
  let close ← (src.closingParenthesis? head.parenthesis).filter (· < body.closeBrace)
  let (offset, terminator) ← Terminator.find? (src.text.extract (close + 1) body.closeBrace)
  let position := close + 1 + offset
  if src.isCodeAt position then some ⟨close, position, terminator⟩ else none

/-- Where the method ends whose declaration ends as given, trailing comments left out. -/
def methodEnd? (ending : DeclarationEnd) : Option Nat :=
  match ending.terminator with
  | .semicolon => some (ending.position + 1)
  | .body =>
    ((body.innerClose? src ending.position).filter fun close =>
      (Region.holding? skipped close).isNone).map (· + 1)

/-- The method that a head declares, when the methods before it end at `previous` and it is the
one at `place`. Without words before its name only a constructor with a body is one. -/
def methodAt? (previous place : Nat) (head : MethodHead) : Option Method := do
  if !admitsHead src head then none
  let ending ← body.declarationEnd? src head
  let isConstructor := head.name == body.name
  if Text.allBlank head.modifiers && (ending.terminator == .semicolon || !isConstructor) then none
  let inner ← body.methodEnd? src skipped ending
  let stop := body.afterTrailingComment src inner
  let declaration := src.text.extract head.start (ending.position + 1)
  let methodBody := match ending.terminator with
    | .body => src.text.extract ending.position inner
    | .semicolon => []
  some
    { name := head.name
      signature := src.text.extract head.nameStart (ending.parenthesis + 1)
      access := Access.ofDeclaration declaration
      isConstructor
      isStatic := Method.declaresStatic declaration
      isGetter := Method.declaresGetter head.name declaration
      isSetter := Method.declaresSetter head.name declaration
      leading := src.leadingLines (leadingFloor skipped previous head.start) head.start
      text := src.text.extract head.start stop
      body := methodBody
      calls := if methodBody.isEmpty then [] else src.calledNames head.start stop
      start := head.start
      stop
      position := place }

/-- Does the method, with its leading lines, start behind a member or at the start of the body? -/
def startsMember (m : Method) : Bool :=
  (src.lastSolid? body.openBrace m.leadingStart).all isBoundary

/-- Goes through the heads from `resume` on. `previous` is the end of the last method found, and
`place` the number of methods found. -/
def findMembers (resume previous place : Nat) : List MethodHead → List Finding
  | [] => []
  | head :: rest =>
    if head.start < resume then findMembers resume previous place rest
    else match Region.holding? skipped head.start with
      | some region => findMembers region.stop previous place rest
      | none =>
        if src.braceDepth body.openBrace head.start ≠ 1 then findMembers resume previous place rest
        else match body.methodAt? src skipped previous place head with
          | none => findMembers resume previous place rest
          | some m =>
            if body.startsMember src m then
              .method m :: findMembers m.stop m.stop (place + 1) rest
            else .inPlace m.signature :: findMembers m.stop previous place rest

/-- The findings in the whole body. -/
def members : List Finding :=
  let first := body.openBrace + 1
  body.findMembers src skipped first first 0
    (MethodHead.allBetween src.text first body.closeBrace)

end ClassBody

end MemberOrder
