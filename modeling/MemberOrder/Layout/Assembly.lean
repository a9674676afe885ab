import MemberOrder.Layout.Basic

/-!
Assembly: the source that results when the methods of a layout take new places. One empty line
separates the blocks; gaps that hold nothing but white space vanish.
-/

set_option autoImplicit false

namespace MemberOrder

/-- A method as a block of the result, without the empty lines before it. -/
def Method.rendered (m : Method) : Text :=
  let leading := Text.dropEmptyLines m.leading
  let text := Text.dropEmptyLines m.text
  if Text.allBlank leading then text else leading ++ text

/-- A gap as a block of the result, without the empty lines before and the white space after it. -/
def Segment.renderedGap (gap : Text) : Text := Text.trimRight (Text.dropEmptyLines gap)

namespace Layout

/-- What stands between two blocks. -/
def separator : Text := ['\n', '\n']

/-- The blocks of the result: slots are filled with the methods in the order given, which must be
as many. -/
def blocks? : List Segment → List Method → Option (List Text)
  | [], _ => some []
  | .slot _ :: _, [] => none
  | .slot _ :: rest, m :: methods => (blocks? rest methods).map (m.rendered :: ·)
  | .gap text :: rest, methods =>
    let block := Segment.renderedGap text
    if block.isEmpty then blocks? rest methods else (blocks? rest methods).map (block :: ·)

/-- The source with the methods in the order given. -/
def assemble? (layout : Layout) (methods : List Method) : Option Text :=
  (blocks? layout.segments methods).map fun blocks =>
    Text.trimRight layout.head ++ separator ++ Text.joined separator blocks ++ layout.tail

end Layout

end MemberOrder
