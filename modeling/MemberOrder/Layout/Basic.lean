import MemberOrder.Layout.Member

/-!
Layouts: a source cut into what stands before its first method, the methods with what stands
between them, and what stands after the last. Methods may trade places; all else keeps its own.
-/

set_option autoImplicit false

namespace MemberOrder

/-- A piece between the first and the last method: a place for a method, or a text that stays. -/
inductive Segment
  | slot (m : Method)
  | gap (text : Text)
deriving DecidableEq

namespace Segment

/-- The piece of the source that the segment is. -/
def text : Segment → Text
  | .slot m => m.block
  | .gap text => text

def method? : Segment → Option Method
  | .slot m => some m
  | .gap _ => none

end Segment

structure Layout where
  body : ClassBody
  skipped : List Region
  /-- What stands before the first method. -/
  head : Text
  segments : List Segment
  /-- What stands after the last method. -/
  tail : Text
  /-- The signatures of declarations that stay in place, in order. -/
  inPlace : List Text
deriving DecidableEq

namespace Layout

def name (layout : Layout) : Text := layout.body.name

def methods (layout : Layout) : List Method := layout.segments.filterMap Segment.method?

/-- The source that the layout is of. -/
def source (layout : Layout) : Text :=
  layout.head ++ (layout.segments.map Segment.text).flatten ++ layout.tail

/-- The segments from a method on, with the texts between the methods. -/
def segmentsFrom (text : Text) (m : Method) : List Method → List Segment
  | [] => [.slot m]
  | next :: rest =>
    .slot m :: .gap (text.extract m.stop next.leadingStart) :: segmentsFrom text next rest

/-- Cuts a source at the methods found in it. -/
def ofMembers (src : Source) (body : ClassBody) (skipped : List Region)
    (members : List Finding) : Layout :=
  let methods := members.filterMap fun
    | .method m => some m
    | .inPlace _ => none
  let inPlace := members.filterMap fun
    | .method _ => none
    | .inPlace signature => some signature
  match methods with
  | [] => ⟨body, skipped, src.text, [], [], inPlace⟩
  | first :: rest =>
    { body
      skipped
      head := src.text.take first.leadingStart
      segments := segmentsFrom src.text first rest
      tail := src.text.drop (rest.getLast?.getD first).stop
      inPlace }

end Layout

/-- What becomes of reading a source: it declares no class, the body of its class is never closed,
or it has a layout. -/
inductive Reading
  | noClass
  | unclosed (name : Text) (openBrace : Nat)
  | complete (layout : Layout)
deriving DecidableEq

namespace Reading

def ofSource (src : Source) : Reading :=
  match src.firstClass? with
  | none => .noClass
  | some (name, openBrace) =>
    match src.closingBrace? openBrace with
    | none => .unclosed name openBrace
    | some closeBrace =>
      let body : ClassBody := ⟨name, openBrace, closeBrace⟩
      let skipped := body.skippedRegions src
      .complete (Layout.ofMembers src body skipped (body.members src skipped))

def ofText (text : Text) : Reading := ofSource (Source.ofText text)

def layout? : Reading → Option Layout
  | .complete layout => some layout
  | _ => none

/-- The methods in the order of the source; none where there is no complete class. -/
def methods (reading : Reading) : List Method := (reading.layout?.map Layout.methods).getD []

end Reading

end MemberOrder
