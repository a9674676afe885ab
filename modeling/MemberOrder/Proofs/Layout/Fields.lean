import MemberOrder.Proofs.Layout.Balance
import MemberOrder.Proofs.Layout.Blocks

/-!
What travels with a method and what keeps its place. A field ends with a semicolon, and the lines
that lead a method hold a semicolon only behind an annotation at the beginning of a line. So a field
travels with the method below it exactly if it ends on a line that an annotation begins, with
nothing but leading lines between this line and the method; every other field is part of a piece
that is no method, and stands behind as many methods after a reordering as before it.
-/

set_option autoImplicit false

namespace MemberOrder

/-- A position in pieces put together is in one of them. -/
theorem exists_piece_of_lt {α : Type} {pieces : List (List α)} {i : Nat}
    (h : i < pieces.flatten.length) :
    ∃ front piece back, pieces = front ++ piece :: back ∧ front.flatten.length ≤ i ∧
      i < front.flatten.length + piece.length := by
  induction pieces generalizing i with
  | nil => exact absurd h (Nat.not_lt_zero i)
  | cons first rest ih =>
    by_cases hfirst : i < first.length
    · exact ⟨[], first, rest, rfl, Nat.zero_le i, by simpa using hfirst⟩
    · rw [List.flatten_cons, List.length_append] at h
      obtain ⟨front, piece, back, rfl, hle, hlt⟩ := ih (show i - first.length < _ by omega)
      refine ⟨first :: front, piece, back, rfl, ?_, ?_⟩
      · rw [List.flatten_cons, List.length_append]
        omega
      · rw [List.flatten_cons, List.length_append]
        omega

/-! ### Lines that lead a declaration -/

namespace Source

variable {src : Source}

/-- Behind a line feed leading lines belong to the run of leading lines, as far as it goes. -/
theorem suffix_leadingIn (wholeLine : Bool) (front : List Glyph) {feed : Glyph}
    (hfeed : feed.char = '\n') {rest : List Glyph}
    (hrest : ∀ line ∈ linesOf rest, isLeadingLine line = true) :
    rest <:+ leadingIn wholeLine (front ++ [feed] ++ rest) := by
  have hpos := length_linesOf_pos front feed
  rw [leadingIn_eq, linesOf_append_feed front hfeed,
    List.drop_append_of_le_length (by split_ifs <;> omega), List.rtakeWhile, List.reverse_append,
    List.takeWhile_append_of_pos (fun line hline ↦ hrest line (List.mem_reverse.mp hline)),
    List.reverse_append, List.reverse_reverse, List.flatten_append, flatten_linesOf]
  exact List.suffix_append _ _

/-- The line of a stretch that a position is on. -/
theorem exists_line_of_lt (src : Source) {start stop i : Nat} (hstart : start ≤ i) (hi : i < stop)
    (hstop : stop ≤ src.text.length) :
    ∃ lineStart line others, start ≤ lineStart ∧ lineStart ≤ i ∧ i < lineStart + line.length ∧
      (lineStart = start ∨ src.text[lineStart - 1]? = some '\n') ∧
      linesOf (src.glyphs.extract lineStart stop) = line :: others ∧
      line :: others <:+ linesOf (src.glyphs.extract start stop) := by
  set stretch := src.glyphs.extract start stop with hstretch
  have hlength : stretch.length = stop - start :=
    length_extract _ (hstart.trans hi.le) (src.length_glyphs ▸ hstop)
  have hflat := flatten_linesOf stretch
  obtain ⟨before, line, others, hlines, hle, hlt⟩ :=
    exists_piece_of_lt (show i - start < (linesOf stretch).flatten.length by rw [hflat]; omega)
  set lineStart := start + before.flatten.length with hset
  have hbefore : src.glyphs.extract start lineStart = before.flatten ∧
      src.glyphs.extract lineStart stop = (line :: others).flatten := by
    refine List.append_inj ?_ ?_
    · rw [extract_append_extract _ (Nat.le_add_right _ _) (by omega), ← List.flatten_append,
        ← hlines, hflat]
    · rw [length_extract _ (Nat.le_add_right _ _) (by rw [src.length_glyphs]; omega)]
      omega
  refine ⟨lineStart, line, others, Nat.le_add_right _ _, by omega, by omega, ?_, ?_, ?_⟩
  · rcases endsLine_of_linesOf_eq hlines (List.cons_ne_nil _ _) with hnone | hfeed
    · exact Or.inl (by rw [hset, hnone, List.length_nil, Nat.add_zero])
    · right
      have hpos : 0 < before.flatten.length := by
        refine List.length_pos_iff.mpr fun hnil ↦ ?_
        simp [hnil] at hfeed
      rw [src.getElem?_text, ← getLast?_extract (show start < lineStart by omega)
        (by rw [src.length_glyphs]; omega), hbefore.1]
      exact hfeed
  · have hdrop := linesOf_flatten_drop stretch before.length
    rwa [hlines, List.drop_left, ← hbefore.2] at hdrop
  · exact hlines ▸ List.suffix_append _ _

/-- The position is on a line that an annotation begins. The line stands below the floor, and all
lines from there to the declaration lead it. -/
def OnAnnotationOf (src : Source) (floor start i : Nat) : Prop :=
  ∃ lineStart line others, floor < lineStart ∧ src.text[lineStart - 1]? = some '\n' ∧
    linesOf (src.glyphs.extract lineStart start) = line :: others ∧
    lineStart ≤ i ∧ i < lineStart + line.length ∧
    (line.dropWhile Glyph.isBlank).head?.any (·.char == '@') = true ∧
    ∀ other ∈ others, isLeadingLine other = true

/-- Code stands on the leading lines of a declaration exactly if an annotation begins its line and
there are only leading lines from there on. -/
theorem leads_iff_onAnnotationOf {floor start i : Nat} {g : Glyph}
    (hfloor : floor ≤ start) (hstart : start ≤ src.text.length)
    (hfeed : src.text[start - 1]? = some '\n') (hpart : src.beginsLineAt floor = false)
    (hg : src.glyphs[i]? = some g) (hsolid : g.isSolid = true) :
    start - (src.leadingLines floor start).length ≤ i ∧ i < start ↔
      src.OnAnnotationOf floor start i := by
  have hleading := src.extract_leadingLines hfloor hstart
  have hpos : 0 < floor := by
    refine Nat.pos_of_ne_zero ?_
    rintro rfl
    cases hpart
  obtain ⟨hlength, -, hbefore, -⟩ := leadingLines_spec hfloor hstart hpos hfeed
  set top := start - (src.leadingLines floor start).length with htop
  have hbehind : floor < top := by
    refine Nat.lt_of_le_of_ne (by omega) fun heq ↦ ?_
    rw [← heq] at hbefore
    rw [beginsLineAt_of_feed hbefore] at hpart
    cases hpart
  constructor
  · rintro ⟨hle, hlt⟩
    obtain ⟨lineStart, line, others, htopLine, hline, hin, hbegins, hlines, hsuffix⟩ :=
      src.exists_line_of_lt hle hlt hstart
    have hlead {other : List Glyph} (hother : other ∈ line :: others) :
        isLeadingLine other = true := by
      have hmem := hsuffix.subset hother
      rw [hleading] at hmem
      exact isLeadingLine_of_mem_leadingIn hmem
    have hmem : g ∈ line := by
      have hat := getElem?_extract src.glyphs (show i - lineStart < start - lineStart by omega)
      rw [← flatten_linesOf (src.glyphs.extract lineStart start), hlines, List.flatten_cons,
        List.getElem?_append_left (by omega), Nat.add_sub_cancel' hline, hg] at hat
      exact List.mem_of_getElem? hat
    refine ⟨lineStart, line, others, by omega, ?_, hlines, hline, hin, ?_,
      fun other hother ↦ hlead (List.mem_cons_of_mem _ hother)⟩
    · rcases hbegins with rfl | hbegins
      · exact hbefore
      · exact hbegins
    · rcases Bool.or_eq_true_iff.mp (hlead List.mem_cons_self) with hmute | hannotation
      · have hnot := List.all_eq_true.mp hmute g hmem
        rw [hsolid] at hnot
        cases hnot
      · exact hannotation
  · rintro ⟨lineStart, line, others, hbelow, hbegins, hlines, hline, hin, hannotation, hothers⟩
    have hwidth : lineStart + line.length ≤ start := by
      have hflat := congrArg List.length (flatten_linesOf (src.glyphs.extract lineStart start))
      rw [hlines, List.flatten_cons, List.length_append, List.extract_eq_take_drop,
        List.length_take] at hflat
      omega
    refine ⟨?_, by omega⟩
    have hlead : ∀ other ∈ linesOf (src.glyphs.extract lineStart start),
        isLeadingLine other = true := by
      rw [hlines]
      exact List.forall_mem_cons.mpr ⟨Bool.or_eq_true_iff.mpr (Or.inr hannotation), hothers⟩
    obtain ⟨k, rfl⟩ := Nat.exists_eq_add_of_lt hbelow
    rw [Nat.add_sub_cancel, src.getElem?_text] at hbegins
    obtain ⟨feed, hglyph, hchar⟩ := Option.map_eq_some_iff.mp hbegins
    have hrun := suffix_leadingIn false (src.glyphs.extract floor (floor + k)) hchar hlead
    rw [← extract_eq_concat hglyph (Nat.le_add_right _ _),
      extract_append_extract _ (by omega) (by omega), ← hpart, ← hleading] at hrun
    have hlengths := hrun.length_le
    rw [length_extract _ (by omega) (by rwa [src.length_glyphs]),
      length_extract _ (Nat.sub_le _ _) (by rwa [src.length_glyphs])] at hlengths
    omega

end Source

/-! ### Pieces that keep their place -/

namespace Layout

open Text

/-- How far the pieces go. -/
def width (pieces : List Segment) : Nat := (pieces.map Segment.text).flatten.length

@[simp]
theorem width_nil : width [] = 0 := rfl

@[simp]
theorem width_cons (piece : Segment) (rest : List Segment) :
    width (piece :: rest) = piece.text.length + width rest := by
  simp [width]

@[simp]
theorem width_append (front back : List Segment) :
    width (front ++ back) = width front + width back := by
  simp [width]

/-- All pieces of a source, with what stands before its methods and behind them. -/
def pieces (layout : Layout) : List Segment :=
  .gap layout.head :: (layout.segments ++ [.gap layout.tail])

theorem width_pieces (layout : Layout) : width layout.pieces = layout.source.length := by
  simp only [pieces, width_cons, width_append, width_nil, Segment.text, source, List.length_append]
  rw [width]
  omega

theorem refilled_append (front back : List Segment) (order : List Method) :
    refilled (front ++ back) order =
      refilled front order ++
        refilled back (order.drop (front.filterMap Segment.method?).length) := by
  induction front generalizing order with
  | nil => rfl
  | cons piece rest ih =>
    cases piece with
    | slot m =>
      cases order with
      | nil => simpa [refilled, Segment.method?] using ih []
      | cons first others => simpa [refilled, Segment.method?] using ih others
    | gap text =>
      rw [List.filterMap_cons_none rfl, List.cons_append, refilled, refilled, ih order,
        List.cons_append]

/-- The position is in a piece that is no method, and whatever order the methods take, this piece
stands where it stood: between the same pieces that are no methods and behind as many methods, but
for white space. -/
def KeepsPlace (layout : Layout) (i : Nat) : Prop :=
  ∃ front gap back, layout.pieces = front ++ .gap gap :: back ∧
    width front ≤ i ∧ i < width front + gap.length ∧
    ∀ order : List Method, order.Perm layout.methods →
      ∃ result, layout.assemble? order = some result ∧
        withoutBlanks result = (refilled front order).flatMap withoutBlanks ++ withoutBlanks gap ++
          (refilled back (order.drop (front.filterMap Segment.method?).length)).flatMap
            withoutBlanks

/-- Pieces that are no methods stay between as many methods in every order. -/
theorem exists_assemble?_of_pieces_eq {layout : Layout} {front back : List Segment} {gap : Text}
    (h : layout.pieces = front ++ .gap gap :: back) {order : List Method}
    (horder : order.Perm layout.methods) :
    ∃ result, layout.assemble? order = some result ∧
      withoutBlanks result = (refilled front order).flatMap withoutBlanks ++ withoutBlanks gap ++
        (refilled back (order.drop (front.filterMap Segment.method?).length)).flatMap
          withoutBlanks := by
  obtain ⟨result, hresult, hrefills⟩ := exists_assemble?_eq horder.length_eq.ge
  refine ⟨result, hresult, ?_⟩
  have hpieces : refilled layout.pieces order =
      layout.head :: (refilled layout.segments order ++ [layout.tail]) := by
    rw [pieces, refilled, refilled_append]
    rfl
  have hsplit : refilled layout.pieces order = refilled front order ++ gap ::
      refilled back (order.drop (front.filterMap Segment.method?).length) := by
    rw [h, refilled_append, refilled]
  have hflat := congrArg (List.flatMap withoutBlanks) (hpieces.symm.trans hsplit)
  simpa [hrefills.withoutBlanks_eq] using hflat

/-- The same position is in one piece only. -/
theorem eq_of_holds {front front' back back' : List Segment} {piece piece' : Segment} {i : Nat}
    (h : front ++ piece :: back = front' ++ piece' :: back')
    (hle : width front ≤ i) (hlt : i < width front + piece.text.length)
    (hle' : width front' ≤ i) (hlt' : i < width front' + piece'.text.length) : piece = piece' := by
  rcases List.append_eq_append_iff.mp h with ⟨between, rfl, hrest⟩ | ⟨between, rfl, hrest⟩
  · cases between with
    | nil => exact (List.cons_eq_cons.mp hrest).1
    | cons first others =>
      obtain ⟨rfl, -⟩ := List.cons_eq_cons.mp hrest
      rw [width_append, width_cons] at hle'
      omega
  · cases between with
    | nil => exact (List.cons_eq_cons.mp hrest).1.symm
    | cons first others =>
      obtain ⟨rfl, -⟩ := List.cons_eq_cons.mp hrest
      rw [width_append, width_cons] at hle
      omega

theorem length_block {src : Source} {body : ClassBody} (hclose : body.closeBrace ≤ src.text.length)
    {m : Method} (h : m.Placed src body) : m.block.length = m.stop - m.leadingStart := by
  rw [block_eq h]
  exact length_extract _ (h.leadingStart_le.trans h.start_lt.le) (h.stop_le.trans hclose)

/-- The slot of a method begins where its leading lines do. -/
theorem width_before_slot {src : Source} {body : ClassBody}
    (hclose : body.closeBrace ≤ src.text.length) {previous place : Nat} {first m : Method}
    {rest : List Method} (h : body.Tiles src previous place (first :: rest))
    {front back : List Segment}
    (hsplit : segmentsFrom src.text first rest = front ++ .slot m :: back) :
    first.leadingStart + width front = m.leadingStart := by
  induction rest generalizing previous place first front with
  | nil =>
    obtain ⟨rfl, hslot⟩ | ⟨_, -, hnone⟩ := List.cons_eq_append_iff.mp hsplit
    · cases hslot
      rfl
    · simp at hnone
  | cons next rest ih =>
    obtain ⟨hplaced, -, -, htiles⟩ := h
    rw [segmentsFrom] at hsplit
    obtain ⟨rfl, hslot⟩ | ⟨others, rfl, hrest⟩ := List.cons_eq_append_iff.mp hsplit
    · cases hslot
      rfl
    · obtain ⟨rfl, hslot⟩ | ⟨front, rfl, hnext⟩ := List.cons_eq_append_iff.mp hrest
      · cases hslot
      · rw [← ih htiles hnext, width_cons, width_cons, Segment.text, Segment.text,
          length_block hclose hplaced]
        obtain ⟨hplacedNext, hbehind, -⟩ := htiles
        have hends := hplaced.leadingStart_le.trans hplaced.start_lt.le
        have hnextEnds := hplacedNext.leadingStart_le.trans
          (hplacedNext.start_lt.le.trans (hplacedNext.stop_le.trans hclose))
        rw [length_extract _ hbehind hnextEnds]
        omega

theorem width_of_pieces_eq {text : Text} {layout : Layout}
    (h : Reading.ofText text = .complete layout) {front back : List Segment} {m : Method}
    (hsplit : layout.pieces = front ++ .slot m :: back) :
    m ∈ layout.methods ∧ width front = m.leadingStart := by
  obtain ⟨-, hslot⟩ | ⟨others, rfl, hrest⟩ := List.cons_eq_append_iff.mp hsplit
  · cases hslot
  obtain ⟨back', hsegments⟩ : ∃ back', layout.segments = others ++ .slot m :: back' := by
    obtain ⟨between, -, htail⟩ | ⟨between, hsegments, hslot⟩ := List.append_eq_append_iff.mp hrest
    · obtain ⟨-, htail⟩ | ⟨_, -, htail⟩ := List.cons_eq_append_iff.mp htail
      · cases htail
      · simp at htail
    · obtain ⟨-, htail⟩ | ⟨others', rfl, -⟩ := List.cons_eq_append_iff.mp hslot
      · cases htail
      · exact ⟨others', hsegments⟩
  have hm : m ∈ layout.methods :=
    List.mem_filterMap.mpr ⟨.slot m, hsegments ▸ List.mem_append_right _ List.mem_cons_self, rfl⟩
  obtain ⟨first, rest, hmethods, hhead, hfrom, -⟩ :=
    exists_cut_of_complete h (List.ne_nil_of_mem hm)
  have htiles := Reading.tiles_of_complete h
  have hclose := (Source.closeOf?_bounds (Reading.ofSource_eq_complete h).2.1).2.le
  rw [hmethods] at htiles
  have hlength : layout.head.length = first.leadingStart := by
    have hplaced := htiles.1
    rw [hhead, List.length_take, Nat.min_eq_left]
    exact hplaced.leadingStart_le.trans (hplaced.start_lt.le.trans (hplaced.stop_le.trans hclose))
  refine ⟨hm, ?_⟩
  rw [width_cons, Segment.text, hlength]
  exact width_before_slot hclose htiles (hfrom.symm.trans hsegments)

/-- What keeps its place is what no method takes along. -/
theorem keepsPlace_iff {text : Text} {layout : Layout} (h : Reading.ofText text = .complete layout)
    {i : Nat} (hi : i < text.length) :
    layout.KeepsPlace i ↔ ∀ m ∈ layout.methods, m.leadingStart ≤ i → m.stop ≤ i := by
  have hclose := (Source.closeOf?_bounds (Reading.ofSource_eq_complete h).2.1).2.le
  have hblock {m : Method} (hm : m ∈ layout.methods) :
      m.leadingStart + (Segment.slot m).text.length = m.stop := by
    have hplaced := (Reading.tiles_of_complete h).placed_of_mem hm
    have hends := hplaced.leadingStart_le.trans hplaced.start_lt.le
    rw [Segment.text, length_block hclose hplaced, Nat.add_sub_cancel' hends]
  constructor
  · rintro ⟨front, gap, back, hsplit, hle, hlt, -⟩ m hm hbehind
    by_contra hin
    obtain ⟨segment, hsegment, hmethod⟩ := List.mem_filterMap.mp hm
    have hslot : segment = .slot m := by
      cases segment with
      | slot m' => exact congrArg Segment.slot (Option.some.inj hmethod)
      | gap text => cases hmethod
    subst hslot
    obtain ⟨front', back', hsplit'⟩ := List.append_of_mem
      (show Segment.slot m ∈ layout.pieces by simp [pieces, hsegment])
    have hwidth := (width_of_pieces_eq h hsplit').2
    have heq := eq_of_holds (hsplit.symm.trans hsplit') hle hlt (by omega)
      (by rw [hwidth, hblock hm]; omega)
    cases heq
  · intro hnone
    have hlength : width layout.pieces = text.length := by
      rw [width_pieces, Reading.source_of_complete h]
      rfl
    obtain ⟨texts, piece, others, htexts, hle, hlt⟩ := exists_piece_of_lt (hlength ▸ hi)
    obtain ⟨front, rest, hpieces, rfl, hrest⟩ := List.map_eq_append_iff.mp htexts
    obtain ⟨piece, back, rfl, rfl, -⟩ := List.map_eq_cons_iff.mp hrest
    cases piece with
    | slot m =>
      obtain ⟨hm, hwidth⟩ := width_of_pieces_eq h hpieces
      have hstop := hnone m hm (hwidth ▸ hle)
      have hin : i < m.leadingStart + (Segment.slot m).text.length := hwidth ▸ hlt
      rw [hblock hm] at hin
      omega
    | gap gap =>
      exact ⟨front, gap, back, hpieces, hle, hlt,
        fun order horder ↦ exists_assemble?_of_pieces_eq hpieces horder⟩

end Layout

namespace Reading

open Source

/-- Code travels with a method, on the lines that lead it, exactly if an annotation begins its line
and there are only leading lines from there to the declaration. -/
theorem travels_iff_onAnnotationOf {src : Source} {layout : Layout}
    (h : ofSource src = .complete layout) {front back : List Method} {m : Method}
    (hsplit : layout.methods = front ++ m :: back) {i : Nat} {g : Glyph}
    (hg : src.glyphs[i]? = some g) (hsolid : g.isSolid = true) :
    m.leadingStart ≤ i ∧ i < m.start ↔
      src.OnAnnotationOf (layout.floorBefore front m.start) m.start i := by
  have hm : m ∈ layout.methods := hsplit ▸ List.mem_append_right _ List.mem_cons_self
  have hplaced := (tiles_of_complete h).placed_of_mem hm
  have hclose := (closeOf?_bounds (ofSource_eq_complete h).2.1).2.le
  have hlength : m.start ≤ src.text.length :=
    hplaced.start_lt.le.trans (hplaced.stop_le.trans hclose)
  obtain ⟨hfloor, hleading⟩ := leading_eq_leadingLines h hsplit
  rw [Method.leadingStart, hleading]
  exact leads_iff_onAnnotationOf hfloor hlength (feed_before_start h hm)
    (beginsLineAt_eq_false (endsInCodeLine_floorBefore h hsplit)) hg hsolid

/-- A semicolon that is code travels with a method before its declaration exactly if it stands on a
line that an annotation begins, below all that cannot lead the method, and there are only leading
lines from there to the declaration. It keeps its place in every order of the methods exactly if it
is in the declaration or the body of no method and travels with none. -/
theorem semicolon_keepsPlace_iff {text : Text} {layout : Layout}
    (h : ofText text = .complete layout) {i : Nat}
    (hi : (Source.ofText text).glyphs[i]? = some (Glyph.code ';')) :
    (∀ front m back, layout.methods = front ++ m :: back →
      (m.leadingStart ≤ i ∧ i < m.start ↔
        (Source.ofText text).OnAnnotationOf (layout.floorBefore front m.start) m.start i)) ∧
    (layout.KeepsPlace i ↔ ∀ front m back, layout.methods = front ++ m :: back →
      ¬ (m.start ≤ i ∧ i < m.stop) ∧
        ¬ (Source.ofText text).OnAnnotationOf (layout.floorBefore front m.start) m.start i) := by
  have hleads {front back : List Method} {m : Method}
      (hsplit : layout.methods = front ++ m :: back) :
      m.leadingStart ≤ i ∧ i < m.start ↔
        (Source.ofText text).OnAnnotationOf (layout.floorBefore front m.start) m.start i :=
    travels_iff_onAnnotationOf h hsplit hi (by decide)
  refine ⟨fun front m back ↦ hleads, ?_⟩
  have hlt : i < text.length := by
    have hbound := (List.getElem?_eq_some_iff.mp hi).1
    rwa [length_glyphs] at hbound
  rw [Layout.keepsPlace_iff h hlt]
  constructor
  · intro hnone front m back hsplit
    have hm : m ∈ layout.methods := hsplit ▸ List.mem_append_right _ List.mem_cons_self
    have hplaced := (tiles_of_complete h).placed_of_mem hm
    rw [← hleads hsplit]
    have hstop := hnone m hm
    have hstart := hplaced.leadingStart_le
    have hends := hplaced.start_lt
    omega
  · intro hnone m hm hbehind
    obtain ⟨front, back, hsplit⟩ := List.append_of_mem hm
    obtain ⟨hown, htravels⟩ := hnone front m back hsplit
    rw [← hleads hsplit] at htravels
    omega

/-- A field on one line with its annotation, and one below its annotation. -/
def annotatedFieldsSource : Text :=
  ("class C \x7b\n  @A int n;\n  @B\n  void b() \x7b\x7d\n" ++
    "  @C(1)\n  int x;\n  // a\n  void a() \x7b\x7d\n\x7d\n").toList

/-- The first travels with the method below it, and the second keeps its place. -/
theorem annotatedFieldsSource_parted :
    ∃ layout, ofText annotatedFieldsSource = .complete layout ∧
      (Source.ofText annotatedFieldsSource).glyphs[20]? = some (Glyph.code ';') ∧
      ¬ layout.KeepsPlace 20 ∧
      (Source.ofText annotatedFieldsSource).glyphs[56]? = some (Glyph.code ';') ∧
      layout.KeepsPlace 56 := by
  have hsome : (ofText annotatedFieldsSource).layout?.any fun layout ↦
      layout.methods.any (fun m ↦ decide (m.leadingStart ≤ 20 ∧ 20 < m.start)) &&
        layout.methods.all (fun m ↦ decide (56 < m.leadingStart ∨ m.stop ≤ 56)) := by
    decide +kernel
  obtain ⟨layout, h, hmethods⟩ := exists_complete_of_any hsome
  obtain ⟨hany, hall⟩ := Bool.and_eq_true_iff.mp hmethods
  have hfirst : (Source.ofText annotatedFieldsSource).glyphs[20]? = some (Glyph.code ';') := by
    decide +kernel
  have hsecond : (Source.ofText annotatedFieldsSource).glyphs[56]? = some (Glyph.code ';') := by
    decide +kernel
  obtain ⟨hleads, hkeeps⟩ := semicolon_keepsPlace_iff h hfirst
  obtain ⟨hleads', hkeeps'⟩ := semicolon_keepsPlace_iff h hsecond
  refine ⟨layout, h, hfirst, fun hstays ↦ ?_, hsecond, hkeeps'.mpr fun front m back hsplit ↦ ?_⟩
  · obtain ⟨m, hm, hin⟩ := List.any_eq_true.mp hany
    obtain ⟨front, back, hsplit⟩ := List.append_of_mem hm
    exact (hkeeps.mp hstays front m back hsplit).2
      ((hleads front m back hsplit).mp (of_decide_eq_true hin))
  · have hm : m ∈ layout.methods := hsplit ▸ List.mem_append_right _ List.mem_cons_self
    have hout := of_decide_eq_true (List.all_eq_true.mp hall m hm)
    have hplaced := (tiles_of_complete h).placed_of_mem hm
    have hstart := hplaced.leadingStart_le
    have hends := hplaced.start_lt
    rw [← hleads' front m back hsplit]
    omega

/-- A field between two methods, on one line with its annotation. -/
def fieldBetweenSource : Text :=
  ("class C \x7b\n  void b() \x7b\x7d\n  @Inject int x;\n" ++
    "  void a() \x7b\x7d\n\x7d\n").toList

/-- The field leads the method below it, and moves in front of the other one with it. -/
theorem fieldBetweenSource_moved :
    ∃ layout, ofText fieldBetweenSource = .complete layout ∧ ∃ m ∈ layout.methods,
      m.leading = "  @Inject int x;\n".toList ∧
      (Source.ofText fieldBetweenSource).glyphs[m.start - 2]? = some (Glyph.code ';') ∧
      layout.assemble? layout.methods.reverse =
        some ("class C \x7b\n\n  @Inject int x;\n  void a() \x7b\x7d\n\n" ++
          "  void b() \x7b\x7d\n\x7d\n").toList := by
  have hsome : (ofText fieldBetweenSource).layout?.any fun layout ↦
      layout.methods.any fun m ↦ decide (m.leading = "  @Inject int x;\n".toList ∧
        (Source.ofText fieldBetweenSource).glyphs[m.start - 2]? = some (Glyph.code ';') ∧
        layout.assemble? layout.methods.reverse =
          some ("class C \x7b\n\n  @Inject int x;\n  void a() \x7b\x7d\n\n" ++
            "  void b() \x7b\x7d\n\x7d\n").toList) := by
    decide +kernel
  obtain ⟨layout, h, hmethods⟩ := exists_complete_of_any hsome
  obtain ⟨m, hm, hfound⟩ := List.any_eq_true.mp hmethods
  exact ⟨layout, h, m, hm, of_decide_eq_true hfound⟩

end Reading

end MemberOrder
