import MemberOrder.Proofs.Layout.Content
import MemberOrder.Proofs.Splice.Pieces

/-!
An assembled source as an opening, pieces and an ending. Every piece is a block with the separator
before it and has a method of the order or none; the ending holds the block of the last method and
what stands behind the methods.
-/

set_option autoImplicit false

namespace MemberOrder

namespace Layout

/-- The source up to the brace that opens the body of the class. -/
def opening (layout : Layout) : Text := layout.head.take (layout.body.openBrace + 1)

/-- What a result shows between the opening and the first block. -/
def preface (layout : Layout) : Text :=
  (Text.trimRight layout.head).drop (layout.body.openBrace + 1)

/-- The opening, a method as the last one, and what stands behind the methods. -/
def endingWith (layout : Layout) (last : Method) : Text :=
  layout.opening ++ (separator ++ last.rendered ++ layout.tail)

/-- The blocks of a result, each with the methods it is for. -/
def blocksFor : List Segment → List Method → List (Text × List Method)
  | [], _ => []
  | .slot _ :: rest, methods =>
    match methods with
    | [] => blocksFor rest []
    | m :: methods => (m.rendered, [m]) :: blocksFor rest methods
  | .gap text :: rest, methods =>
    if (Segment.renderedGap text).isEmpty then blocksFor rest methods
    else (Segment.renderedGap text, []) :: blocksFor rest methods

variable {segments : List Segment} {methods : List Method}

theorem blocks?_eq_some (h : (segments.filterMap Segment.method?).length ≤ methods.length) :
    blocks? segments methods = some ((blocksFor segments methods).map Prod.fst) := by
  induction segments generalizing methods with
  | nil => rfl
  | cons segment rest ih =>
    cases segment with
    | slot m =>
      cases methods with
      | nil => simp [Segment.method?] at h
      | cons first others =>
        rw [blocks?, ih (by simpa [Segment.method?] using h), Option.map_some]
        rfl
    | gap text =>
      rw [blocks?, blocksFor]
      split_ifs
      · exact ih h
      · rw [ih h, Option.map_some, List.map_cons]

theorem flatMap_blocksFor (h : methods.length = (segments.filterMap Segment.method?).length) :
    (blocksFor segments methods).flatMap Prod.snd = methods := by
  induction segments generalizing methods with
  | nil => exact (List.length_eq_zero_iff.mp h).symm
  | cons segment rest ih =>
    cases segment with
    | slot m =>
      cases methods with
      | nil => simp [Segment.method?] at h
      | cons first others =>
        rw [blocksFor, List.flatMap_cons, ih (by simpa [Segment.method?] using h),
          List.singleton_append]
    | gap text =>
      rw [blocksFor]
      split_ifs
      · exact ih h
      · rw [List.flatMap_cons, ih h, List.nil_append]

/-- A block is for a method of the order, or is a gap that is not blank. -/
theorem mem_blocksFor {block : Text × List Method} (h : block ∈ blocksFor segments methods) :
    (∃ m ∈ methods, block = (m.rendered, [m])) ∨
      ∃ text ∈ gaps segments, Segment.renderedGap text ≠ [] ∧
        block = (Segment.renderedGap text, []) := by
  induction segments generalizing methods with
  | nil => cases h
  | cons segment rest ih =>
    cases segment with
    | slot m =>
      cases methods with
      | nil => exact ih h
      | cons first others =>
        rcases List.mem_cons.mp h with rfl | h
        · exact Or.inl ⟨first, List.mem_cons_self, rfl⟩
        · rcases ih h with ⟨other, hother, hblock⟩ | hgap
          · exact Or.inl ⟨other, List.mem_cons_of_mem _ hother, hblock⟩
          · exact Or.inr hgap
    | gap text =>
      have hrest (h : block ∈ blocksFor rest methods) := (ih h).imp id
        fun ⟨other, hother, hblock⟩ ↦
          (⟨other, List.mem_cons_of_mem text hother, hblock⟩ :
            ∃ other ∈ gaps (.gap text :: rest), Segment.renderedGap other ≠ [] ∧
              block = (Segment.renderedGap other, []))
      rw [blocksFor] at h
      split_ifs at h with hempty
      · exact hrest h
      · rcases List.mem_cons.mp h with rfl | h
        · exact Or.inr ⟨text, List.mem_cons_self, by simpa using hempty, rfl⟩
        · exact hrest h

/-- The last block of a result is the last method. -/
theorem exists_blocksFor_eq_concat (text : Text) (m last : Method) {rest init : List Method}
    (h : init.length = rest.length) :
    ∃ blocks, blocksFor (segmentsFrom text m rest) (init ++ [last]) =
      blocks ++ [(last.rendered, [last])] := by
  induction rest generalizing m init with
  | nil =>
    rw [List.length_eq_zero_iff.mp h]
    exact ⟨[], rfl⟩
  | cons next rest ih =>
    obtain ⟨first, init, rfl⟩ := List.exists_cons_of_length_eq_add_one h
    obtain ⟨blocks, hblocks⟩ := ih next (by simpa using h)
    rw [segmentsFrom, List.cons_append, blocksFor, blocksFor, hblocks]
    split_ifs
    · exact ⟨_, (List.cons_append).symm⟩
    · exact ⟨(first.rendered, [first]) :: (_, []) :: blocks, rfl⟩

theorem separator_append_joined (blocks : List Text) (last : Text) :
    separator ++ Text.joined separator (blocks ++ [last]) =
      (blocks.map (separator ++ ·)).flatten ++ (separator ++ last) := by
  induction blocks with
  | nil => rfl
  | cons block blocks ih =>
    obtain ⟨next, others, hcons⟩ := List.exists_cons_of_ne_nil
      (show blocks ++ [last] ≠ [] by simp)
    rw [List.map_cons, List.flatten_cons, List.append_assoc, ← ih, List.cons_append, hcons,
      Text.joined, List.append_assoc, List.append_assoc]

/-- The parts of a complete class that has methods are cut at them. -/
theorem exists_cut_of_complete {text : Text} {layout : Layout}
    (h : Reading.ofText text = .complete layout) (hmethods : layout.methods ≠ []) :
    ∃ first rest, layout.methods = first :: rest ∧ layout.head = text.take first.leadingStart ∧
      layout.segments = segmentsFrom text first rest ∧
      layout.tail = text.drop (rest.getLast?.getD first).stop := by
  obtain ⟨-, -, hlayout⟩ := Reading.ofSource_eq_complete h
  obtain ⟨first, rest, hcons⟩ := List.exists_cons_of_ne_nil hmethods
  have hfound := hcons
  rw [hlayout, methods_ofMembers] at hfound
  have hcut := ofMembers_of_cons (Source.ofText text) layout.body
    (layout.body.skippedRegions (Source.ofText text)) hfound
  rw [← hlayout] at hcut
  exact ⟨first, rest, hcons, hcut⟩

/-- The opening of a class that has methods opens it in every source that starts so. -/
theorem opening_of_complete {text : Text} {layout : Layout}
    (h : Reading.ofText text = .complete layout) (hmethods : layout.methods ≠ []) :
    Opening layout.opening layout.name layout.body.openBrace := by
  obtain ⟨first, rest, hcons, hhead, -, -⟩ := exists_cut_of_complete h hmethods
  have htiles := Reading.tiles_of_complete h
  rw [hcons] at htiles
  have hlt := htiles.1.openBrace_lt
  rw [opening, hhead, List.take_take, Nat.min_eq_left hlt]
  exact Opening.of_firstClass? (Reading.ofSource_eq_complete h).1

theorem trimRight_head {layout : Layout}
    (h : Opening layout.opening layout.name layout.body.openBrace) :
    Text.trimRight layout.head = layout.opening ++ layout.preface := by
  obtain ⟨blanks, hsplit, hblanks⟩ := Text.exists_eq_trimRight_append layout.head
  have hbrace : layout.head[layout.body.openBrace]? = some '\x7b' := by
    have hlast := Source.getLast?_of_opens h.length_eq h.opens
    rwa [List.getLast?_eq_getElem?, h.length_eq, opening, List.getElem?_take_of_lt (by omega)]
      at hlast
  have hlong : layout.body.openBrace < (Text.trimRight layout.head).length := by
    by_contra hshort
    rw [hsplit, List.getElem?_append_right (Nat.not_lt.mp hshort)] at hbrace
    exact absurd (hblanks _ (List.mem_of_getElem? hbrace)) (by decide)
  have hopening : layout.opening =
      (Text.trimRight layout.head).take (layout.body.openBrace + 1) := by
    rw [opening]
    conv_lhs => rw [hsplit]
    exact List.take_append_of_le_length hlong
  rw [preface, hopening, List.take_append_drop]

/-- An assembled source is what stands before the methods, the blocks, of which the last is the last
method, and what stands behind the methods. -/
theorem exists_assembled {layout : Layout} {text : Text} {order : List Method}
    (h : Reading.ofText text = .complete layout) (hmethods : layout.methods ≠ [])
    (hlength : order.length = layout.methods.length) :
    ∃ blocks init last, order = init ++ [last] ∧
      blocksFor layout.segments order = blocks ++ [(last.rendered, [last])] ∧
      layout.assemble? order = some (Text.trimRight layout.head ++
        ((blocks.map (separator ++ ·.1)).flatten ++ (separator ++ last.rendered ++ layout.tail))) := by
  obtain ⟨first, rest, hcons, -, hsegments, -⟩ := exists_cut_of_complete h hmethods
  rw [hcons, List.length_cons] at hlength
  have hne : order ≠ [] := List.ne_nil_of_length_eq_add_one hlength
  obtain ⟨init, last, rfl⟩ : ∃ init last, order = init ++ [last] :=
    ⟨order.dropLast, order.getLast hne, (List.dropLast_append_getLast hne).symm⟩
  rw [List.length_append, List.length_singleton] at hlength
  obtain ⟨blocks, hblocks⟩ :=
    exists_blocksFor_eq_concat text first last (Nat.add_right_cancel hlength)
  rw [← hsegments] at hblocks
  refine ⟨blocks, init, last, rfl, hblocks, ?_⟩
  have hslots : (layout.segments.filterMap Segment.method?).length ≤ (init ++ [last]).length := by
    rw [hsegments, methods_segmentsFrom, List.length_append, List.length_cons,
      List.length_singleton]
    omega
  rw [assemble?, blocks?_eq_some hslots, hblocks, Option.map_some, List.map_append, List.map_cons,
    List.map_nil, List.append_assoc (Text.trimRight layout.head), separator_append_joined,
    List.map_map]
  simp only [List.append_assoc]
  rfl

/-- An assembled source is its opening, a piece for the preface and one for each block but the last,
and the ending with the last method. -/
theorem exists_pieces {layout : Layout} {text : Text} {order : List Method} {result : Text}
    (h : Reading.ofText text = .complete layout) (hmethods : layout.methods ≠ [])
    (hlength : order.length = layout.methods.length)
    (hresult : layout.assemble? order = some result) :
    ∃ blocks init last, order = init ++ [last] ∧
      blocksFor layout.segments order = blocks ++ [(last.rendered, [last])] ∧
      result = layout.opening ++
        ((layout.preface :: blocks.map (separator ++ ·.1)).flatten ++
          (separator ++ last.rendered ++ layout.tail)) := by
  obtain ⟨blocks, init, last, horder, hblocks, hassembled⟩ := exists_assembled h hmethods hlength
  refine ⟨blocks, init, last, horder, hblocks, ?_⟩
  rw [hassembled, Option.some.injEq, trimRight_head (opening_of_complete h hmethods)] at hresult
  rw [← hresult, List.flatten_cons, List.append_assoc layout.opening,
    List.append_assoc layout.preface]

end Layout

end MemberOrder
