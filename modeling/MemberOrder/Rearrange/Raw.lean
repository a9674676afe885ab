import MemberOrder.Rearrange
import MemberOrder.Text.Raw

/-!
Rearranging a raw text. What is read of it and how its methods are ordered depends on its shadow;
the result is put together from pieces of the raw text itself, so that each surrogate moves along
with what stands around it.
-/

set_option autoImplicit false

namespace MemberOrder

namespace RawText

/-- Drops the complete lines at the start that hold only spaces, tabs and carriage returns. -/
def dropEmptyLines (t : RawText) : RawText :=
  t.drop (t.length - (Text.dropEmptyLines t.shadow).length)

def trimRight (t : RawText) : RawText := t.take (Text.trimRight t.shadow).length

end RawText

/-- The block of a method of the source. -/
def Method.renderedRaw (source : RawText) (m : Method) : RawText :=
  let leading := RawText.dropEmptyLines (source.extract m.leadingStart m.start)
  let text := RawText.dropEmptyLines (source.extract m.start m.stop)
  if Text.allBlank leading.shadow then text else leading ++ text

namespace Layout

/-- The blocks of the result, where `rest` is what the source holds from the segments on. -/
def rawBlocks? (source : RawText) : RawText → List Segment → List Method → Option (List RawText)
  | _, [], _ => some []
  | _, .slot _ :: _, [] => none
  | rest, .slot old :: segments, m :: methods =>
    (rawBlocks? source (rest.drop old.block.length) segments methods).map
      (m.renderedRaw source :: ·)
  | rest, .gap text :: segments, methods =>
    let block := RawText.trimRight (RawText.dropEmptyLines (rest.take text.length))
    let others := rawBlocks? source (rest.drop text.length) segments methods
    if block.isEmpty then others else others.map (block :: ·)

/-- The source, which has the layout, with its methods in the order given. -/
def assembleRaw? (layout : Layout) (source : RawText) (methods : List Method) : Option RawText :=
  let separator := RawText.ofText separator
  (rawBlocks? source (source.drop layout.head.length) layout.segments methods).map fun blocks =>
    RawText.trimRight (source.take layout.head.length) ++ separator ++ Text.joined separator blocks
      ++ source.drop (source.length - layout.tail.length)

end Layout

namespace Rearrange

def placeRaw (layout : Layout) (source : RawText) (methods : List Method) : Except Fault RawText :=
  match layout.assembleRaw? source methods with
  | some result => .ok result
  | none => .error .slotUnfilled

/-- Sorts the methods of a raw source. -/
def sortRaw (options : Options) (source : RawText) : Except Fault RawText :=
  match movable? source.shadow with
  | none => .ok source
  | some layout =>
    match options.ordered? layout.methods with
    | none => .error .nullInName
    | some methods => placeRaw layout source methods

/-- Shuffles the methods of a raw source. -/
def shuffleRaw (indexes : IndexSource) (source : RawText) : Except Fault RawText :=
  match movable? source.shadow with
  | none => .ok source
  | some layout =>
    match shuffle? indexes layout.methods with
    | none => .error .indexOutOfRange
    | some (methods, _) => placeRaw layout source methods

end Rearrange

end MemberOrder
