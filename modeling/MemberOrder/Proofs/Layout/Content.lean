import MemberOrder.Layout.Assembly
import MemberOrder.Proofs.Layout.Tiling

/-!
What assembly keeps of a source. Only white space is dropped from the parts of a layout, and only
white space is put between them: but for it, the result is what stands before the methods, the
slots filled in the new order with every gap in its place, and what stands behind them.
-/

set_option autoImplicit false

namespace MemberOrder

namespace Text

/-- The text without its white space. -/
def withoutBlanks (t : Text) : Text := t.filter fun c ↦ !isBlank c

@[simp]
theorem withoutBlanks_append (t u : Text) :
    withoutBlanks (t ++ u) = withoutBlanks t ++ withoutBlanks u :=
  List.filter_append ..

theorem withoutBlanks_cons_of_isBlank {c : Char} (h : isBlank c = true) (t : Text) :
    withoutBlanks (c :: t) = withoutBlanks t :=
  List.filter_cons_of_neg (by simp [h])

theorem withoutBlanks_eq_nil {t : Text} (h : ∀ c ∈ t, isBlank c = true) : withoutBlanks t = [] :=
  List.filter_eq_nil_iff.mpr fun c hc ↦ by simp [h c hc]

/-- The line kept for last differs from what is left to read in white space only. -/
theorem withoutBlanks_dropEmptyLinesFrom {line t : Text}
    (h : withoutBlanks line = withoutBlanks t) :
    withoutBlanks (dropEmptyLinesFrom line t) = withoutBlanks t := by
  induction t generalizing line with
  | nil => exact h
  | cons c rest ih =>
    simp only [dropEmptyLinesFrom]
    split_ifs with hfeed hfill
    · rw [ih rfl, withoutBlanks_cons_of_isBlank (by rw [hfeed]; decide)]
    · rw [withoutBlanks_cons_of_isBlank (isBlank_of_isLineFill hfill)] at h ⊢
      exact ih h
    · exact h

@[simp]
theorem withoutBlanks_dropEmptyLines (t : Text) :
    withoutBlanks (dropEmptyLines t) = withoutBlanks t :=
  withoutBlanks_dropEmptyLinesFrom rfl

theorem dropEmptyLinesFrom_suffix {line t : Text} (h : t <:+ line) :
    dropEmptyLinesFrom line t <:+ line := by
  fun_induction dropEmptyLinesFrom line t with
  | case1 line => exact List.suffix_refl line
  | case2 line rest ih =>
    exact (ih (List.suffix_refl rest)).trans ((List.suffix_cons _ rest).trans h)
  | case3 line c rest hfeed hfill ih => exact ih ((List.suffix_cons c rest).trans h)
  | case4 line c rest hfeed hfill => exact List.suffix_refl line

theorem dropEmptyLines_suffix (t : Text) : dropEmptyLines t <:+ t :=
  dropEmptyLinesFrom_suffix (List.suffix_refl t)

/-- A text is its trimmed part with white space behind it. -/
theorem exists_eq_trimRight_append (t : Text) :
    ∃ blanks, t = trimRight t ++ blanks ∧ ∀ c ∈ blanks, isBlank c = true := by
  refine ⟨(t.reverse.takeWhile isBlank).reverse, ?_, fun c hc ↦ ?_⟩
  · rw [trimRight, ← List.reverse_append, List.takeWhile_append_dropWhile, List.reverse_reverse]
  · exact List.mem_takeWhile_imp (List.mem_reverse.mp hc)

@[simp]
theorem withoutBlanks_trimRight (t : Text) : withoutBlanks (trimRight t) = withoutBlanks t := by
  obtain ⟨blanks, hsplit, hblanks⟩ := exists_eq_trimRight_append t
  conv_rhs => rw [hsplit]
  rw [withoutBlanks_append, withoutBlanks_eq_nil hblanks, List.append_nil]

theorem withoutBlanks_joined {separator : Text} (h : ∀ c ∈ separator, isBlank c = true)
    (pieces : List Text) :
    withoutBlanks (joined separator pieces) = pieces.flatMap withoutBlanks := by
  fun_induction joined separator pieces with
  | case1 => rfl
  | case2 piece => simp
  | case3 piece next others ih =>
    rw [withoutBlanks_append, withoutBlanks_append, withoutBlanks_eq_nil h, ih, List.append_nil]
    rfl

end Text

open Text

theorem Method.withoutBlanks_rendered (m : Method) :
    withoutBlanks m.rendered = withoutBlanks m.block := by
  unfold rendered block
  simp only
  split_ifs with hblank
  · have hleading : withoutBlanks m.leading = [] := by
      rw [← withoutBlanks_dropEmptyLines]
      exact withoutBlanks_eq_nil (List.all_eq_true.mp hblank)
    simp [hleading]
  · simp

theorem Segment.withoutBlanks_renderedGap (gap : Text) :
    withoutBlanks (renderedGap gap) = withoutBlanks gap := by
  simp [renderedGap]

namespace Layout

/-- The pieces of the segments when the methods in the order given fill the slots, each with its
leading lines, and every gap stays as it is. -/
def refilled : List Segment → List Method → List Text
  | [], _ => []
  | .slot _ :: rest, [] => refilled rest []
  | .slot _ :: rest, m :: methods => m.block :: refilled rest methods
  | .gap text :: rest, methods => text :: refilled rest methods

/-- The texts of the gaps. -/
def gaps : List Segment → List Text
  | [] => []
  | .slot _ :: rest => gaps rest
  | .gap text :: rest => text :: gaps rest

theorem refilled_methods (segments : List Segment) :
    refilled segments (segments.filterMap Segment.method?) = segments.map Segment.text := by
  induction segments with
  | nil => rfl
  | cons segment rest ih =>
    cases segment with
    | slot m => exact congrArg (m.block :: ·) ih
    | gap text => exact congrArg (text :: ·) ih

/-- Filled slots and gaps have the methods and the gaps. -/
theorem refilled_perm {segments : List Segment} {methods : List Method}
    (h : methods.length = (segments.filterMap Segment.method?).length) :
    (refilled segments methods).Perm (methods.map Method.block ++ gaps segments) := by
  induction segments generalizing methods with
  | nil =>
    rw [List.length_eq_zero_iff.mp h]
    exact List.Perm.refl _
  | cons segment rest ih =>
    cases segment with
    | slot m =>
      cases methods with
      | nil => simp [Segment.method?] at h
      | cons first others => exact (ih (by simpa [Segment.method?] using h)).cons first.block
    | gap text => exact ((ih h).cons text).trans List.perm_middle.symm

/-- As many methods as there are slots give a block for each, and the gaps theirs. -/
theorem exists_blocks?_eq {segments : List Segment} {methods : List Method}
    (h : (segments.filterMap Segment.method?).length ≤ methods.length) :
    ∃ blocks, blocks? segments methods = some blocks ∧
      blocks.flatMap withoutBlanks = (refilled segments methods).flatMap withoutBlanks := by
  induction segments generalizing methods with
  | nil => exact ⟨[], rfl, rfl⟩
  | cons segment rest ih =>
    cases segment with
    | slot m =>
      cases methods with
      | nil => simp [Segment.method?] at h
      | cons first others =>
        obtain ⟨blocks, hblocks, heq⟩ := ih (by simpa [Segment.method?] using h)
        refine ⟨first.rendered :: blocks, by simp [blocks?, hblocks], ?_⟩
        rw [refilled, List.flatMap_cons, List.flatMap_cons, heq, first.withoutBlanks_rendered]
    | gap text =>
      obtain ⟨blocks, hblocks, heq⟩ := ih h
      by_cases hempty : (Segment.renderedGap text).isEmpty
      · refine ⟨blocks, by simp [blocks?, hempty, hblocks], ?_⟩
        have hgap : withoutBlanks text = [] := by
          rw [← Segment.withoutBlanks_renderedGap, List.isEmpty_iff.mp hempty]
          rfl
        rw [refilled, List.flatMap_cons, hgap, heq, List.nil_append]
      · refine ⟨Segment.renderedGap text :: blocks, by simp [blocks?, hempty, hblocks], ?_⟩
        rw [refilled, List.flatMap_cons, List.flatMap_cons, heq,
          Segment.withoutBlanks_renderedGap]

/-- The text is the layout with the methods in the given order in its slots, but for white space,
and ends as the layout does. -/
structure Refills (layout : Layout) (order : List Method) (result : Text) : Prop where
  withoutBlanks_eq : withoutBlanks result =
    withoutBlanks layout.head ++ (refilled layout.segments order).flatMap withoutBlanks ++
      withoutBlanks layout.tail
  tail_suffix : layout.tail <:+ result

/-- Assembly with as many methods as there are slots refills the layout. -/
theorem exists_assemble?_eq {layout : Layout} {order : List Method}
    (h : layout.methods.length ≤ order.length) :
    ∃ result, layout.assemble? order = some result ∧ layout.Refills order result := by
  obtain ⟨blocks, hblocks, heq⟩ := exists_blocks?_eq h
  refine ⟨_, by rw [assemble?, hblocks, Option.map_some], ?_, ?_⟩
  · have hseparator : ∀ c ∈ separator, isBlank c = true := List.all_eq_true.mp (by decide)
    simp only [withoutBlanks_append, withoutBlanks_trimRight, withoutBlanks_eq_nil hseparator,
      withoutBlanks_joined hseparator, heq, List.append_nil]
  · exact List.suffix_append _ _

/-- Refilling a layout in any order of its methods keeps the characters of its source, each as
often, but for white space. -/
theorem Refills.perm_source {layout : Layout} {order : List Method} {result : Text}
    (h : layout.Refills order result) (horder : order.Perm layout.methods) :
    (withoutBlanks result).Perm (withoutBlanks layout.source) := by
  have hrefilled : (refilled layout.segments order).Perm
      (refilled layout.segments layout.methods) :=
    (refilled_perm horder.length_eq).trans
      (((horder.map _).append_right _).trans (refilled_perm rfl).symm)
  have hsource : withoutBlanks layout.source = withoutBlanks layout.head ++
      (refilled layout.segments layout.methods).flatMap withoutBlanks ++
        withoutBlanks layout.tail := by
    rw [source, methods, refilled_methods, withoutBlanks_append, withoutBlanks_append]
    congr 2
    exact List.filter_flatten
  rw [h.withoutBlanks_eq, hsource]
  exact ((hrefilled.flatMap_right _).append_left _).append_right _

end Layout

end MemberOrder
