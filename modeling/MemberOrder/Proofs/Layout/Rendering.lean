import MemberOrder.Proofs.Layout.Surroundings

/-!
Blocks once they are rendered. A text without empty lines at its start and white space at its end
stays so with line feeds around it: rendering it again gives it back. A rendered method that is read
as itself has nothing but line feeds in front of it, and alone in a piece it ends the piece.
-/

set_option autoImplicit false

namespace MemberOrder

theorem forall_eq_of_concat_eq_cons {α : Type} {l : List α} {x y : α} (h : l ++ [x] = y :: l) :
    ∀ z ∈ l, z = y := by
  induction l with
  | nil => simp
  | cons a l ih =>
    obtain ⟨rfl, htail⟩ := List.cons_eq_cons.mp h
    exact List.forall_mem_cons.mpr ⟨rfl, ih htail⟩

namespace Text

/-- Does the text start with a line that is more than empty, or not complete? -/
def StartsLine (t : Text) : Prop := (t.dropWhile isLineFill).head? ≠ some '\n'

theorem dropEmptyLinesFrom_of_startsLine (line : Text) {t : Text} (h : StartsLine t) :
    dropEmptyLinesFrom line t = line := by
  induction t with
  | nil => rfl
  | cons c rest ih =>
    unfold dropEmptyLinesFrom
    split_ifs with hfeed hfill
    · subst hfeed
      exact absurd rfl h
    · refine ih ?_
      rwa [StartsLine, List.dropWhile_cons_of_pos hfill] at h
    · rfl

theorem startsLine_dropEmptyLinesFrom {line t : Text} (h : StartsLine t → StartsLine line) :
    StartsLine (dropEmptyLinesFrom line t) := by
  induction t generalizing line with
  | nil => exact h (by simp [StartsLine])
  | cons c rest ih =>
    unfold dropEmptyLinesFrom
    split_ifs with hfeed hfill
    · exact ih id
    · refine ih fun hrest ↦ h ?_
      rwa [StartsLine, List.dropWhile_cons_of_pos hfill]
    · refine h ?_
      rw [StartsLine, List.dropWhile_cons_of_neg hfill]
      simpa using hfeed

theorem startsLine_dropEmptyLines (t : Text) : StartsLine (dropEmptyLines t) :=
  startsLine_dropEmptyLinesFrom id

theorem trimRight_append {t blanks : Text} (h : ∀ c ∈ blanks, isBlank c = true) :
    trimRight (t ++ blanks) = trimRight t := by
  unfold trimRight
  rw [List.reverse_append, List.dropWhile_append_of_pos fun c hc ↦ h c (List.mem_reverse.mp hc)]

theorem trimRight_trimRight (t : Text) : trimRight (trimRight t) = trimRight t := by
  obtain ⟨blanks, hsplit, hblanks⟩ := exists_eq_trimRight_append t
  nth_rewrite 2 [hsplit]
  exact (trimRight_append hblanks).symm

/-- A line feed at the start makes an empty line. -/
theorem dropEmptyLines_feeds_append (n : Nat) (t : Text) :
    dropEmptyLines (List.replicate n '\n' ++ t) = dropEmptyLines t := by
  induction n with
  | zero => rfl
  | succ n ih => exact ih

/-- Whether a text starts with an empty line shows in every part of it that has more than line
fill. -/
theorem startsLine_append_iff {t : Text} (h : ∃ c ∈ t, isLineFill c = false) (more : Text) :
    StartsLine (t ++ more) ↔ StartsLine t := by
  obtain ⟨c, hc, hfill⟩ := h
  have hne : t.dropWhile isLineFill ≠ [] := fun hnone ↦
    absurd (List.dropWhile_eq_nil_iff.mp hnone c hc) (by simp [hfill])
  unfold StartsLine
  rw [List.dropWhile_append, if_neg (by simpa using hne), List.head?_append_of_ne_nil _ hne]

theorem trimRight_eq_nil {t : Text} (h : ∀ c ∈ t, isBlank c = true) : trimRight t = [] := by
  rw [← List.nil_append t, trimRight_append h]
  rfl

end Text

open Text

namespace Segment

/-- A rendered gap with line feeds around it is rendered as itself. -/
theorem renderedGap_feeds (gap : Text) (before after : Nat) :
    renderedGap (List.replicate before '\n' ++ renderedGap gap ++ List.replicate after '\n') =
      renderedGap gap := by
  have hfeeds (n : Nat) : ∀ c ∈ List.replicate n '\n', isBlank c = true := by
    intro c hc
    rw [List.eq_of_mem_replicate hc]
    decide
  unfold renderedGap
  set lines := dropEmptyLines gap
  rw [List.append_assoc, dropEmptyLines_feeds_append]
  obtain ⟨blanks, hsplit, -⟩ := exists_eq_trimRight_append lines
  by_cases hsolid : ∃ c ∈ trimRight lines, isLineFill c = false
  · have hlines : StartsLine (trimRight lines) := by
      rw [← startsLine_append_iff hsolid blanks, ← hsplit]
      exact startsLine_dropEmptyLines gap
    rw [dropEmptyLines,
      dropEmptyLinesFrom_of_startsLine _ ((startsLine_append_iff hsolid _).mpr hlines),
      trimRight_append (hfeeds after), trimRight_trimRight]
  · have hblank : ∀ c ∈ trimRight lines, isBlank c = true := by
      intro c hc
      by_contra hsome
      exact hsolid ⟨c, hc, by
        by_contra hfill
        exact hsome (isBlank_of_isLineFill (by simpa using hfill))⟩
    have hnil : trimRight lines = [] := by
      rw [← trimRight_trimRight, trimRight_eq_nil hblank]
    rw [hnil, List.nil_append]
    refine trimRight_eq_nil fun c hc ↦ ?_
    exact hfeeds after c ((dropEmptyLines_suffix _).subset hc)

end Segment

namespace Method

theorem shownLeading_suffix (m : Method) : m.shownLeading <:+ m.leading := by
  unfold shownLeading
  split_ifs
  · exact List.nil_suffix
  · exact dropEmptyLines_suffix m.leading

/-- A rendered method is no longer than the method with its leading lines, and is these where it is
as long. -/
theorem length_rendered_le (m : Method) :
    m.rendered.length ≤ m.block.length ∧
      (m.rendered.length = m.block.length → m.rendered = m.block) := by
  have hleading := m.shownLeading_suffix
  have htext := dropEmptyLines_suffix m.text
  have hle := hleading.length_le
  have hle' := htext.length_le
  rw [rendered_eq, block, List.length_append, List.length_append]
  refine ⟨by omega, fun hsame ↦ ?_⟩
  rw [hleading.eq_of_length (by omega), htext.eq_of_length (by omega)]

end Method

/-- A method that is found has a parameter list. -/
theorem Reading.parenthesis_mem_text {src : Source} {layout : Layout}
    (h : ofSource src = .complete layout) {m : Method} (hm : m ∈ layout.methods) :
    ')' ∈ m.text := by
  obtain ⟨opening, closing, hstart, hclosing, hclose, -⟩ := exists_parameters h hm
  have hbehind := (Source.closeOf?_bounds hclose).1
  have hchar : src.text[closing]? = some ')' := by
    rw [src.getElem?_text, Source.getElem?_of_closeOf? hclose]
    rfl
  have hat : (src.text.extract m.start m.stop)[closing - m.start]? = some ')' := by
    rw [getElem?_extract _ (by omega), Nat.add_sub_cancel' (by omega)]
    exact hchar
  rw [← ((tiles_of_complete h).placed_of_mem hm).text_eq]
  exact List.mem_of_getElem? hat

namespace Opening

variable {pre name : Text} {o : Nat} (h : Opening pre name o)

include h

theorem front_append_block {u : Text} {layout : Layout}
    (hread : Reading.ofText (pre ++ u) = .complete layout) {m : Method}
    (hone : layout.methods = [m]) : layout.front ++ m.block ++ layout.tail = u := by
  obtain ⟨htiles, hfront, -, htail⟩ := h.cut_of_complete hread hone
  have hplaced := htiles.1
  have hle := hplaced.leadingStart_le
  have hlt := hplaced.start_lt
  have hopen := hplaced.openBrace_lt
  rw [h.openBrace_of_complete hread] at hopen
  have hblock : m.block = (pre ++ u).extract m.leadingStart m.stop := Layout.block_eq hplaced
  have hbody : (pre ++ u).drop (o + 1) = u := by
    rw [← h.length_eq, List.drop_left]
  have hbehind : (pre ++ u).drop m.stop = u.drop (m.stop - (o + 1)) := by
    nth_rewrite 2 [← hbody]
    rw [List.drop_drop, Nat.add_sub_cancel' (by omega)]
  rw [hfront, hblock, htail, extract_append_extract _ (by omega) (by omega),
    List.extract_eq_take_drop, hbody, List.getLast?_nil, Option.getD_none, hbehind,
    List.take_append_drop]

/-- Only line feeds stand in front of a method that is read as it was rendered. -/
theorem front_of_rendered {m : Method} {tail : Text} {layout : Layout}
    (hread : Reading.ofText (pre ++ (Layout.separator ++ m.rendered ++ tail)) = .complete layout)
    (hmethods : layout.methods.map Method.essence = [m.essence]) (htail : layout.tail = tail) :
    ∃ n, layout.front = List.replicate n '\n' := by
  obtain ⟨found, hone, hessence⟩ := List.map_eq_singleton_iff.mp hmethods
  have hrendered := Method.rendered_eq_of_essence_eq hessence
  have hparts := h.front_append_block hread hone
  rw [htail, List.append_left_inj, ← hrendered] at hparts
  have hlength := congrArg List.length hparts
  rw [List.length_append, List.length_append] at hlength
  have hle := found.length_rendered_le.1
  have hshort : layout.front.length ≤ Layout.separator.length := by omega
  refine ⟨layout.front.length, ?_⟩
  have htake := congrArg (List.take layout.front.length) hparts
  rw [List.take_left, List.take_append_of_le_length hshort] at htake
  rw [htake]
  have hseparator : Layout.separator = List.replicate 2 '\n' := rfl
  rw [hseparator, List.take_replicate, List.length_replicate]

/-- The first method stands on a line of its own. -/
theorem front_ne_nil {u : Text} {layout : Layout}
    (hread : Reading.ofText (pre ++ u) = .complete layout) (hmethods : layout.methods ≠ []) :
    layout.front ≠ [] := by
  obtain ⟨first, rest, hcons⟩ := List.exists_cons_of_ne_nil hmethods
  obtain ⟨htiles, hfront, -⟩ := h.cut_of_complete hread hcons
  have hopen := htiles.1.openBrace_lt
  rw [h.openBrace_of_complete hread] at hopen
  have hfeed : (pre ++ u)[first.leadingStart - 1]? = some '\n' := htiles.1.lineFeed_before
  have hbrace : (pre ++ u)[o]? = some '\x7b' := by
    have hlast := Source.getLast?_of_opens h.length_eq h.opens
    rw [List.getLast?_eq_getElem?, h.length_eq] at hlast
    rw [List.getElem?_append_left (by rw [h.length_eq]; omega)]
    exact hlast
  have hlt : o + 1 < first.leadingStart := by
    refine Nat.lt_of_le_of_ne hopen fun heq ↦ ?_
    rw [← heq, Nat.add_sub_cancel, hbrace] at hfeed
    exact absurd hfeed (by decide)
  have hlast : layout.front[first.leadingStart - 1 - (o + 1)]? = some '\n' := by
    rw [hfront, getElem?_extract _ (by omega), Nat.add_sub_cancel' (by omega), hfeed]
  exact List.ne_nil_of_mem (List.mem_of_getElem? hlast)

/-- The only method of a sealed piece ends in it. -/
theorem stop_le_of_piece {piece : Text}
    (hsealed : (bodyOfPiece name o piece).Sealed (pieceAlone pre piece)) {layout : Layout}
    (hread : Reading.ofText (pre ++ (piece ++ ['\n', '\x7d'])) = .complete layout) {m : Method}
    (hone : layout.methods = [m]) : m.stop ≤ o + piece.length + 1 := by
  have hmethods : (bodyOfPiece name o piece).methods (pieceAlone pre piece) = [m] := by
    rw [← h.methods_piece hsealed, hread]
    exact hone
  have hlast := (h.spliced hsealed ['\x7d']).lastStop_le hsealed (Nat.lt_succ_self (o + 1))
  change (((bodyOfPiece name o piece).methods (pieceAlone pre piece)).getLast?.map Method.stop).getD
    _ ≤ _ at hlast
  rwa [hmethods] at hlast

/-- The only method of a sealed piece, if it is read as it was rendered, ends the piece. -/
theorem tail_of_rendered {m : Method} {layout : Layout}
    (hsealed : (bodyOfPiece name o (Layout.separator ++ m.rendered)).Sealed
      (pieceAlone pre (Layout.separator ++ m.rendered)))
    (hread : Reading.ofText (pre ++ (Layout.separator ++ m.rendered ++ ['\n', '\x7d'])) =
      .complete layout)
    (hmethods : layout.methods.map Method.essence = [m.essence]) :
    layout.tail = ['\n', '\x7d'] := by
  obtain ⟨found, hone, hessence⟩ := List.map_eq_singleton_iff.mp hmethods
  have hmem : found ∈ layout.methods := hone ▸ List.mem_singleton_self found
  have hrendered : found.rendered = m.rendered := Method.rendered_eq_of_essence_eq hessence
  have hfront := List.length_pos_iff.mpr (h.front_ne_nil hread (List.ne_nil_of_mem hmem))
  have hparts := h.front_append_block hread hone
  obtain ⟨hle, hsame⟩ := found.length_rendered_le
  have hlong : 2 ≤ layout.tail.length := by
    have hstop := h.stop_le_of_piece hsealed hread hone
    rw [(h.cut_of_complete hread hone).2.2.2, List.getLast?_nil, Option.getD_none,
      List.length_drop, List.length_append, h.length_eq, List.length_append,
      List.length_cons, List.length_singleton]
    omega
  rw [← hrendered] at hparts
  rcases List.append_eq_append_iff.mp hparts with ⟨more, hbefore, htail⟩ | ⟨more, -, htail⟩
  · have hlength := congrArg List.length hbefore
    rw [List.length_append, List.length_append, List.length_append,
      show Layout.separator.length = 2 from rfl] at hlength
    -- There is room for one character at most, and that would shift the method against itself.
    rcases more with _ | ⟨x, _ | ⟨y, more⟩⟩
    · exact htail
    · rw [List.length_singleton] at hlength
      obtain ⟨c, hc⟩ := List.length_eq_one_iff.mp (show layout.front.length = 1 by omega)
      rw [← hsame (by omega), hc] at hbefore
      have hshift : found.rendered ++ [x] = '\n' :: found.rendered :=
        (List.cons_eq_cons.mp hbefore).2.symm
      have hparenthesis : ')' ∈ found.rendered := by
        rw [hsame (by omega)]
        exact List.mem_append_right _ (Reading.parenthesis_mem_text hread hmem)
      exact absurd (forall_eq_of_concat_eq_cons hshift _ hparenthesis) (by decide)
    · simp only [List.length_cons] at hlength
      omega
  · have hlength := congrArg List.length htail
    rw [List.length_append, List.length_cons, List.length_singleton] at hlength
    rw [List.length_eq_zero_iff.mp (show more.length = 0 by omega)] at htail
    exact htail.symm

end Opening

end MemberOrder
