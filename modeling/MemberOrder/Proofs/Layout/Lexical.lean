import MemberOrder.Proofs.Layout.Blocks
import MemberOrder.Proofs.Layout.Cuts
import MemberOrder.Proofs.Layout.Rendering
import MemberOrder.Proofs.Source.WhiteSpace

/-!
How an assembled source is read. Every part of a source that is cut from code to code is read by
itself: rendering drops only white space of it, and the empty line behind it leads back to code. So
whatever order the methods take, a reader of the result finds every character code, or not, as it
was in the source.
-/

set_option autoImplicit false

namespace MemberOrder

open Source

/-! ### Rendered blocks -/

namespace Text

theorem forall_isBlank_of_append_eq {blanks t whole : Text} (hsplit : blanks ++ t = whole)
    (h : withoutBlanks t = withoutBlanks whole) : ∀ c ∈ blanks, isBlank c = true := by
  rw [← hsplit, withoutBlanks_append, List.self_eq_append_left, withoutBlanks,
    List.filter_eq_nil_iff] at h
  simpa using h

end Text

/-- The text of a method starts with a line that is more than empty. -/
theorem Reading.startsLine_text {src : Source} {layout : Layout}
    (h : ofSource src = .complete layout) {m : Method} (hm : m ∈ layout.methods) :
    Text.StartsLine m.text := by
  obtain ⟨opening, closing, hstart, hclosing, hclose, hline⟩ := exists_parameters h hm
  have hbehind := (closeOf?_bounds hclose).1
  have hparenthesis : src.text[opening]? = some '(' := by
    rw [src.getElem?_text, getElem?_opening_of_closeOf? hclose]
    rfl
  rw [← ((tiles_of_complete h).placed_of_mem hm).text_eq,
    ← extract_append_extract _ (show m.start ≤ opening + 1 by omega)
      (show opening + 1 ≤ m.stop by omega),
    extract_eq_concat hparenthesis hstart]
  refine (Text.startsLine_append_iff ⟨'(', List.mem_concat_self, by decide⟩ _).mpr fun hfeed ↦ ?_
  have hmem := (List.dropWhile_sublist _).subset (List.mem_of_mem_head? hfeed)
  rcases List.mem_append.mp hmem with hmem | hmem
  · exact hline _ hmem rfl
  · exact absurd (List.mem_singleton.mp hmem) (by decide)

namespace Method

variable {m : Method}

/-- A method is shown as it is but for white space before it. -/
theorem exists_block_eq (h : Text.StartsLine m.text) :
    ∃ blanks, m.block = blanks ++ m.rendered ∧ ∀ c ∈ blanks, Text.isBlank c = true := by
  have hsuffix : m.rendered <:+ m.block := by
    rw [rendered_eq, Text.dropEmptyLines, Text.dropEmptyLinesFrom_of_startsLine _ h, block]
    obtain ⟨blanks, hblanks⟩ := m.shownLeading_suffix
    exact ⟨blanks, by rw [← List.append_assoc, hblanks]⟩
  obtain ⟨blanks, hblock⟩ := hsuffix
  exact ⟨blanks, hblock.symm, Text.forall_isBlank_of_append_eq hblock m.withoutBlanks_rendered⟩

theorem marks_rendered (h : Text.StartsLine m.text) :
    marks (scan .code m.rendered) = marks (scan .code m.block) := by
  obtain ⟨blanks, hblock, hblanks⟩ := exists_block_eq h
  rw [hblock, marks_scan_code_blanks_append hblanks]

theorem closesLine_rendered (h : Text.StartsLine m.text) (hcloses : ClosesLine m.block) :
    ClosesLine m.rendered := by
  obtain ⟨blanks, hblock, hblanks⟩ := exists_block_eq h
  rw [hblock] at hcloses
  exact hcloses.of_blanks_append hblanks

end Method

namespace Segment

/-- A gap is shown as it is but for white space around it. -/
theorem exists_gap_eq (gap : Text) : ∃ before after,
    gap = before ++ (renderedGap gap ++ after) ∧ (∀ c ∈ before, Text.isBlank c = true) ∧
      ∀ c ∈ after, Text.isBlank c = true := by
  obtain ⟨before, hbefore⟩ := Text.dropEmptyLines_suffix gap
  obtain ⟨after, hafter, hblank⟩ := Text.exists_eq_trimRight_append (Text.dropEmptyLines gap)
  refine ⟨before, after, ?_, Text.forall_isBlank_of_append_eq hbefore
    (Text.withoutBlanks_dropEmptyLines gap), hblank⟩
  rw [renderedGap, ← hafter, hbefore]

theorem marks_renderedGap (gap : Text) :
    marks (scan .code (renderedGap gap)) = marks (scan .code gap) := by
  obtain ⟨before, after, hgap, hbefore, hafter⟩ := exists_gap_eq gap
  conv_rhs => rw [hgap]
  rw [marks_scan_code_blanks_append hbefore, marks_scan_append_blanks _ hafter]

theorem settles_renderedGap {gap : Text} (h : lastIsCode true (scan .code gap) = true) :
    Settles (renderedGap gap) := by
  obtain ⟨before, after, hgap, hbefore, hafter⟩ := exists_gap_eq gap
  refine settles_of_lastIsCode hafter ?_
  have hcode : lastIsCode true (before.map Glyph.code) = true := by
    rw [lastIsCode, List.getLast?_map, Option.map_map]
    cases before.getLast? <;> rfl
  rwa [hgap, scan_code_blanks_append hbefore, lastIsCode_append, hcode] at h

end Segment

/-! ### Blocks and gaps -/

namespace Layout

/-- The blocks of a result have the marks of the filled slots and the gaps. -/
theorem flatMap_marks_blocksFor {segments : List Segment} {methods : List Method}
    (h : ∀ m ∈ methods, marks (scan .code m.rendered) = marks (scan .code m.block)) :
    (blocksFor segments methods).flatMap (fun block ↦ marks (scan .code block.1)) =
      (refilled segments methods).flatMap fun piece ↦ marks (scan .code piece) := by
  induction segments generalizing methods with
  | nil => rfl
  | cons segment rest ih =>
    cases segment with
    | slot m =>
      cases methods with
      | nil => exact ih h
      | cons first others =>
        obtain ⟨hfirst, hothers⟩ := List.forall_mem_cons.mp h
        rw [blocksFor, refilled, List.flatMap_cons, List.flatMap_cons, hfirst, ih hothers]
    | gap text =>
      rw [blocksFor, refilled, List.flatMap_cons, ← Segment.marks_renderedGap]
      split_ifs with hempty
      · rw [List.isEmpty_iff.mp hempty, scan, marks_nil, List.nil_append, ih h]
      · rw [List.flatMap_cons, ih h]

/-- Texts that an empty line closes are read one by one where such lines separate them. -/
theorem marks_scan_blocks {blocks : List Text} (h : ∀ block ∈ blocks, Settles block) {t : Text}
    (ht : Settles t) (rest : Text) :
    marks (scan .code (t ++ ((blocks.map (separator ++ ·)).flatten ++ (separator ++ rest)))) =
      marks (scan .code t) ++ (blocks.flatMap (fun block ↦ marks (scan .code block)) ++
        marks (scan .code rest)) := by
  induction blocks generalizing t with
  | nil => exact ht rest
  | cons block blocks ih =>
    obtain ⟨hblock, hblocks⟩ := List.forall_mem_cons.mp h
    have hfirst := ht (block ++ ((blocks.map (separator ++ ·)).flatten ++ (separator ++ rest)))
    rw [ih hblocks hblock] at hfirst
    rw [List.flatMap_cons, List.append_assoc (marks (scan .code block)), ← hfirst, List.map_cons,
      List.flatten_cons, List.append_assoc (separator ++ block), List.append_assoc separator]
    rfl

/-- What holds of the stretches between the methods holds of the gaps. -/
theorem forall_mem_gaps_segmentsFrom {P : Text → Prop} {text : Text} {m : Method}
    {rest : List Method}
    (h : (m :: rest).IsChain fun m next ↦ P (text.extract m.stop next.leadingStart)) :
    ∀ gap ∈ gaps (segmentsFrom text m rest), P gap := by
  induction rest generalizing m with
  | nil => simp [segmentsFrom, gaps]
  | cons next rest ih =>
    rw [List.isChain_cons_cons] at h
    rw [segmentsFrom, gaps, gaps]
    exact List.forall_mem_cons.mpr ⟨h.1, ih h.2⟩

end Layout

/-- Methods that stand one behind the other are related as each is to those behind it. -/
theorem ClassBody.Tiles.isChain {src : Source} {body : ClassBody} {previous place : Nat}
    {methods : List Method} (h : body.Tiles src previous place methods)
    {R : Method → Method → Prop} (hR : ∀ m ∈ methods, ∀ next ∈ methods,
      m.stop ≤ next.leadingStart → R m next) : methods.IsChain R := by
  induction methods generalizing previous place with
  | nil => exact List.IsChain.nil
  | cons m rest ih =>
    obtain ⟨-, -, -, hrest⟩ := h
    have hchain := ih hrest fun a ha b hb ↦
      hR a (List.mem_cons_of_mem _ ha) b (List.mem_cons_of_mem _ hb)
    cases rest with
    | nil => exact List.IsChain.singleton m
    | cons next rest =>
      refine List.isChain_cons_cons.mpr ⟨?_, hchain⟩
      exact hR m List.mem_cons_self next (List.mem_cons_of_mem _ List.mem_cons_self) hrest.2.1

/-- The stretches of a source from its first method to its last, with the methods in the order given
in the places of its own. -/
def Source.refilled (src : Source) : List Method → List Method → List (List Glyph)
  | m :: next :: rest, filling :: order =>
    src.glyphs.extract filling.leadingStart filling.stop ::
      src.glyphs.extract m.stop next.leadingStart :: src.refilled (next :: rest) order
  | [_], filling :: _ => [src.glyphs.extract filling.leadingStart filling.stop]
  | _, _ => []

/-- Stretches that are read by themselves have the marks of their texts. -/
theorem Source.marks_refilled {src : Source} {m : Method} {rest order : List Method}
    (horder : ∀ filling ∈ order,
      src.glyphs.extract filling.leadingStart filling.stop = scan .code filling.block)
    (hgaps : (m :: rest).IsChain fun m next ↦ src.glyphs.extract m.stop next.leadingStart =
      scan .code (src.text.extract m.stop next.leadingStart))
    (hlength : order.length = rest.length + 1) :
    marks (src.refilled (m :: rest) order).flatten =
      (Layout.refilled (Layout.segmentsFrom src.text m rest) order).flatMap
        fun piece ↦ marks (scan .code piece) := by
  induction rest generalizing m order with
  | nil =>
    obtain ⟨filling, rfl⟩ := List.length_eq_one_iff.mp hlength
    have hfilling := horder filling List.mem_cons_self
    simp [Source.refilled, Layout.segmentsFrom, Layout.refilled, hfilling]
  | cons next rest ih =>
    obtain ⟨filling, order, rfl⟩ := List.exists_cons_of_length_eq_add_one hlength
    obtain ⟨hfilling, horder⟩ := List.forall_mem_cons.mp horder
    rw [List.isChain_cons_cons] at hgaps
    rw [Source.refilled, Layout.segmentsFrom, Layout.refilled, Layout.refilled, List.flatten_cons,
      List.flatten_cons, marks_append, marks_append, hfilling, hgaps.1,
      ih horder hgaps.2 (by simpa using hlength)]
    rfl

/-! ### Readings -/

namespace Reading

/-- A method ends with code, or before a line feed that is code. -/
theorem code_end {src : Source} {layout : Layout} (h : ofSource src = .complete layout) {m : Method}
    (hm : m ∈ layout.methods) :
    (∃ c ∉ signStarts, src.glyphs[m.stop - 1]? = some (Glyph.code c) ∧ m.leadingStart < m.stop) ∨
      src.glyphs[m.stop]? = some (Glyph.code '\n') := by
  have hplaced := (tiles_of_complete h).placed_of_mem hm
  have hlt : m.leadingStart < m.stop := Nat.lt_of_le_of_lt hplaced.leadingStart_le hplaced.start_lt
  obtain ⟨head, -, previous, place, ending, inner, -, hdeclares, rfl⟩ :=
    exists_head_of_mem_methods h hm
  obtain ⟨-, -, -, hstop | hfeed⟩ := ClassBody.exists_trailing src layout.body inner
  · left
    obtain ⟨i, c, hi, hglyph, hc⟩ := ClassBody.exists_glyph_of_extent? hdeclares.extent_eq
    refine ⟨c, ?_, ?_, hlt⟩
    · rcases hc with rfl | rfl <;> decide
    · change src.glyphs[layout.body.afterTrailingComment src inner - 1]? = _
      rw [hstop, hi, Nat.add_sub_cancel, hglyph]
  · exact Or.inr hfeed

section Cut

variable {text : Text} {layout : Layout} (h : ofText text = .complete layout)
  (hcode : ∀ m ∈ layout.methods, modeAfter .code (text.take m.leadingStart) = .code)

include h

theorem stop_le_length {m : Method} (hm : m ∈ layout.methods) : m.stop ≤ text.length := by
  obtain ⟨-, hclose, -⟩ := ofSource_eq_complete h
  exact ((tiles_of_complete h).placed_of_mem hm).stop_le.trans (closeOf?_bounds hclose).2.le

theorem leadingStart_le_stop {m : Method} (hm : m ∈ layout.methods) : m.leadingStart ≤ m.stop := by
  have hplaced := (tiles_of_complete h).placed_of_mem hm
  exact hplaced.leadingStart_le.trans hplaced.start_lt.le

theorem endsSign_leadingStart {m : Method} (hm : m ∈ layout.methods) :
    EndsSign (text.take m.leadingStart) := by
  obtain ⟨i, hi, hfeed⟩ := ((tiles_of_complete h).placed_of_mem hm).exists_leadingStart_eq
  rw [hi]
  exact (Source.ofText text).endsSign_of_feed hfeed

include hcode

/-- The line feed before a method that is cut out in code is code. -/
theorem isCodeAt_before_leadingStart {m : Method} (hm : m ∈ layout.methods) :
    (Source.ofText text).isCodeAt (m.leadingStart - 1) = true := by
  obtain ⟨i, hi, hfeed⟩ := ((tiles_of_complete h).placed_of_mem hm).exists_leadingStart_eq
  have hmode := hcode m hm
  rw [hi] at hmode
  rw [hi, Nat.add_sub_cancel]
  exact ((Source.ofText text).modeAfter_take_eq_code_iff hfeed).mp hmode

theorem restarts_leadingStart {m : Method} (hm : m ∈ layout.methods) :
    (Source.ofText text).Restarts m.leadingStart :=
  restarts_of_modeAfter ((leadingStart_le_stop h hm).trans (stop_le_length h hm))
    (endsSign_leadingStart h hm) (hcode m hm)

/-- A method is read by itself, the source is read afresh behind it, and the end of the line closes
it. -/
theorem reads_block {m : Method} (hm : m ∈ layout.methods) :
    (Source.ofText text).glyphs.extract m.leadingStart m.stop = scan .code m.block ∧
      (Source.ofText text).Restarts m.stop ∧ ClosesLine m.block := by
  rw [Layout.block_eq ((tiles_of_complete h).placed_of_mem hm)]
  exact (restarts_leadingStart h hcode hm).extract_of_code_end (leadingStart_le_stop h hm)
    (stop_le_length h hm) (code_end h hm)

/-- What stands between two methods is read by itself and ends in code. -/
theorem reads_gap {m next : Method} (hm : m ∈ layout.methods) (hnext : next ∈ layout.methods)
    (hle : m.stop ≤ next.leadingStart) :
    (Source.ofText text).glyphs.extract m.stop next.leadingStart =
        scan .code (text.extract m.stop next.leadingStart) ∧
      lastIsCode true (scan .code (text.extract m.stop next.leadingStart)) = true := by
  have hlength := (leadingStart_le_stop h hnext).trans (stop_le_length h hnext)
  have hplaced := (tiles_of_complete h).placed_of_mem hnext
  obtain ⟨-, hrestarts, -⟩ := reads_block h hcode hm
  have hread : (Source.ofText text).glyphs.extract m.stop next.leadingStart =
      scan .code (text.extract m.stop next.leadingStart) :=
    hrestarts.extract_of_feed hle hlength fun _ ↦ hplaced.lineFeed_before
  refine ⟨hread, ?_⟩
  rcases Nat.eq_or_lt_of_le hle with heq | hlt
  · rw [← hread, ← heq]
    simp [lastIsCode]
  · obtain ⟨c, hglyph⟩ := exists_code_of_isCodeAt (isCodeAt_before_leadingStart h hcode hnext)
    rw [← hread, lastIsCode, getLast?_extract hlt (by rwa [length_glyphs]), hglyph]
    rfl

/-- What stands before the methods is read by itself and ends in code. -/
theorem reads_head {m : Method} (hm : m ∈ layout.methods) :
    (Source.ofText text).glyphs.take m.leadingStart = scan .code (text.take m.leadingStart) ∧
      lastIsCode true (scan .code (text.take m.leadingStart)) = true := by
  have hread := (Source.ofText text).take_glyphs (endsSign_leadingStart h hm)
  refine ⟨hread, ?_⟩
  have hlength := (leadingStart_le_stop h hm).trans (stop_le_length h hm)
  obtain ⟨i, hi, -⟩ := ((tiles_of_complete h).placed_of_mem hm).exists_leadingStart_eq
  have hbefore := isCodeAt_before_leadingStart h hcode hm
  rw [hi, Nat.add_sub_cancel, (Source.ofText text).isCodeAt_eq_lastIsCode (by
    change _ < text.length
    omega) true, ← hi] at hbefore
  exact hread ▸ hbefore

/-- What stands before the methods is closed by an empty line, with the white space at its end left
out. -/
theorem settles_head (hmethods : layout.methods ≠ []) : Settles (Text.trimRight layout.head) := by
  obtain ⟨first, rest, hcons, hhead, -, -⟩ := Layout.exists_cut_of_complete h hmethods
  obtain ⟨blanks, htrimmed, hblanks⟩ := Text.exists_eq_trimRight_append layout.head
  refine settles_of_lastIsCode hblanks ?_
  rw [← htrimmed, hhead]
  exact (reads_head h hcode (hcons ▸ List.mem_cons_self)).2

theorem marks_head (hmethods : layout.methods ≠ []) :
    marks (scan .code (Text.trimRight layout.head)) =
      marks ((Source.ofText text).glyphs.take layout.head.length) := by
  obtain ⟨first, rest, hcons, hhead, -, -⟩ := Layout.exists_cut_of_complete h hmethods
  have hfirst : first ∈ layout.methods := hcons ▸ List.mem_cons_self
  obtain ⟨blanks, htrimmed, hblanks⟩ := Text.exists_eq_trimRight_append layout.head
  have hlength : layout.head.length = first.leadingStart := by
    rw [hhead, List.length_take, Nat.min_eq_left
      ((leadingStart_le_stop h hfirst).trans (stop_le_length h hfirst))]
  calc marks (scan .code (Text.trimRight layout.head))
      = marks (scan .code (Text.trimRight layout.head ++ blanks)) :=
        (marks_scan_append_blanks _ hblanks).symm
    _ = marks (scan .code (text.take first.leadingStart)) := by rw [← htrimmed, hhead]
    _ = marks ((Source.ofText text).glyphs.take layout.head.length) := by
        rw [hlength, (reads_head h hcode hfirst).1]

/-- The end of the line closes a method as it is shown. -/
theorem closesLine_rendered {m : Method} (hm : m ∈ layout.methods) : ClosesLine m.rendered :=
  Method.closesLine_rendered (startsLine_text h hm) (reads_block h hcode hm).2.2

/-- What the gaps and the methods of an order are shown as is closed by an empty line. -/
theorem settles_of_mem_blocksFor (hmethods : layout.methods ≠ []) {order : List Method}
    (horder : ∀ m ∈ order, m ∈ layout.methods) {block : Text × List Method}
    (hblock : block ∈ Layout.blocksFor layout.segments order) : Settles block.1 := by
  obtain ⟨first, rest, hcons, -, hsegments, -⟩ := Layout.exists_cut_of_complete h hmethods
  rcases Layout.mem_blocksFor hblock with ⟨m, hm, rfl⟩ | ⟨gap, hgap, -, rfl⟩
  · exact (closesLine_rendered h hcode (horder m hm)).settles
  · have hchain := (tiles_of_complete h).isChain fun m hm next hnext hle ↦
      Segment.settles_renderedGap (reads_gap h hcode hm hnext hle).2
    rw [hcons] at hchain
    rw [hsegments] at hgap
    exact Layout.forall_mem_gaps_segmentsFrom (P := fun gap ↦ Settles (Segment.renderedGap gap))
      hchain gap hgap

/-- The blocks of a result have the marks of the source between its first method and its last, with
the methods in their new places. -/
theorem marks_blocksFor (hmethods : layout.methods ≠ []) {order : List Method}
    (horder : order.Perm layout.methods) :
    (Layout.blocksFor layout.segments order).flatMap (fun block ↦ marks (scan .code block.1)) =
      marks ((Source.ofText text).refilled layout.methods order).flatten := by
  obtain ⟨first, rest, hcons, -, hsegments, -⟩ := Layout.exists_cut_of_complete h hmethods
  have hmem : ∀ m ∈ order, m ∈ layout.methods := fun m hm ↦ horder.mem_iff.mp hm
  have hlength : order.length = rest.length + 1 := by
    rw [horder.length_eq, hcons, List.length_cons]
  have hchain := (tiles_of_complete h).isChain fun m hm next hnext hle ↦
    (reads_gap h hcode hm hnext hle).1
  rw [hcons] at hchain
  rw [Layout.flatMap_marks_blocksFor fun m hm ↦
      Method.marks_rendered (startsLine_text h (hmem m hm)), hsegments, hcons,
    Source.marks_refilled (fun m hm ↦ (reads_block h hcode (hmem m hm)).1) hchain hlength]
  rfl

/-- What stands behind the methods is read by itself. -/
theorem reads_tail (hmethods : layout.methods ≠ []) :
    (Source.ofText text).glyphs.drop (text.length - layout.tail.length) = scan .code layout.tail := by
  obtain ⟨first, rest, hcons, -, -, htail⟩ := Layout.exists_cut_of_complete h hmethods
  have hlast : rest.getLast?.getD first ∈ layout.methods := by
    rw [hcons]
    cases hrest : rest.getLast? with
    | none => exact List.mem_cons_self
    | some m => exact List.mem_cons_of_mem _ (List.mem_of_getLast? hrest)
  have hlength := stop_le_length h hlast
  have hstop : text.length - layout.tail.length = (rest.getLast?.getD first).stop := by
    rw [htail, List.length_drop]
    omega
  rw [hstop, htail]
  exact (reads_block h hcode hlast).2.1

end Cut

/-- Assembly keeps the lexical structure of a source. If every method is cut out in code and what
stands behind the methods begins with the end of a line, then in whatever order the methods are put
back, a reader of the result finds the characters that are no white space as they were in the source,
code or not: those before the methods, those of the methods in their new places with what stands
between them, and those behind the methods. -/
theorem marks_assemble? {text : Text} {layout : Layout} (h : ofText text = .complete layout)
    (hmethods : layout.methods ≠ [])
    (hcode : ∀ m ∈ layout.methods, modeAfter .code (text.take m.leadingStart) = .code)
    (htail : (layout.tail.dropWhile Text.isLineFill).head? = some '\n') {order : List Method}
    (horder : order.Perm layout.methods) :
    ∃ result, layout.assemble? order = some result ∧
      marks (Source.ofText result).glyphs =
        marks ((Source.ofText text).glyphs.take layout.head.length) ++
          (marks ((Source.ofText text).refilled layout.methods order).flatten ++
            marks ((Source.ofText text).glyphs.drop (text.length - layout.tail.length))) := by
  have hmem : ∀ m ∈ order, m ∈ layout.methods := fun m hm ↦ horder.mem_iff.mp hm
  obtain ⟨blocks, init, last, rfl, hblocks, hassembled⟩ :=
    Layout.exists_assembled h hmethods horder.length_eq
  refine ⟨_, hassembled, ?_⟩
  -- The head and every block but the last are closed by the empty line behind them.
  have hhead := settles_head h hcode hmethods
  have hsettles : ∀ block ∈ blocks.map Prod.fst, Settles block := by
    intro block hblock
    obtain ⟨entry, hentry, rfl⟩ := List.mem_map.mp hblock
    exact settles_of_mem_blocksFor h hcode hmethods hmem (hblocks ▸ List.mem_append_left _ hentry)
  -- The last block is closed by the end of its line, with which what stands behind it begins.
  have hlast := (closesLine_rendered h hcode (hmem last List.mem_concat_self)).append htail
  have hfilled := marks_blocksFor h hcode hmethods horder
  rw [hblocks, List.flatMap_append, List.flatMap_singleton] at hfilled
  have hread := Layout.marks_scan_blocks hsettles hhead (last.rendered ++ layout.tail)
  rw [List.map_map, List.flatMap_map, hlast, ← List.append_assoc (List.flatMap _ _), hfilled,
    marks_head h hcode hmethods, ← reads_tail h hcode hmethods] at hread
  rw [← hread, List.append_assoc Layout.separator]
  rfl

/-- Quotes and braces in comments, braces in literals, and comments that only the end of their line
ends, on the lines of methods and between them. -/
def quotesInCommentsSource : Text :=
  ("class A \x7b // it's\n  /* \"\x7b\" */\n  void b() \x7b s = \"\x7d\"; \x7d // don't\n" ++
    "  char q = '\"'; // \"\n\n  void a() \x7b\x7d\n\x7d // A\n").toList

/-- Put back in reverse order, its methods are read as before. -/
theorem quotesInCommentsSource_reversed :
    ∃ layout, ofText quotesInCommentsSource = .complete layout ∧ layout.methods.length = 2 ∧
      (∀ m ∈ layout.methods,
        modeAfter .code (quotesInCommentsSource.take m.leadingStart) = .code) ∧
      (layout.tail.dropWhile Text.isLineFill).head? = some '\n' ∧
      ∃ result, layout.assemble? layout.methods.reverse = some result ∧
        marks (Source.ofText result).glyphs =
          marks ((Source.ofText quotesInCommentsSource).glyphs.take layout.head.length) ++
            (marks ((Source.ofText quotesInCommentsSource).refilled layout.methods
                layout.methods.reverse).flatten ++
              marks ((Source.ofText quotesInCommentsSource).glyphs.drop
                (quotesInCommentsSource.length - layout.tail.length))) := by
  have hsome : (ofText quotesInCommentsSource).layout?.any fun layout ↦
      decide (layout.methods.length = 2 ∧
        (∀ m ∈ layout.methods,
          modeAfter .code (quotesInCommentsSource.take m.leadingStart) = .code) ∧
        (layout.tail.dropWhile Text.isLineFill).head? = some '\n') := by
    decide +kernel
  obtain ⟨layout, h, hlayout⟩ := exists_complete_of_any hsome
  obtain ⟨hlength, hcode, htail⟩ := of_decide_eq_true hlayout
  have hmethods : layout.methods ≠ [] := by
    intro hnil
    rw [hnil] at hlength
    cases hlength
  exact ⟨layout, h, hlength, hcode, htail,
    marks_assemble? h hmethods hcode htail (List.reverse_perm layout.methods)⟩

end Reading

end MemberOrder
