import MemberOrder.Proofs.Layout.Lexical

/-!
What stands between the blocks of an assembled source: one empty line and no more. What stands
before the blocks ends in no white space, and no block begins or ends with a line feed, whatever
order the methods take. So the two line feeds of a separator never meet a third, and an empty line
too many is one that a part of the source has inside.
-/

set_option autoImplicit false

namespace MemberOrder

namespace Text

/-- A text that a separator may stand beside: there is something, and neither its first nor its last
character is a line feed. -/
structure IsBlock (t : Text) : Prop where
  ne_nil : t ≠ []
  head_ne : t.head? ≠ some '\n'
  last_ne : t.getLast? ≠ some '\n'

theorem head?_ne_feed_of_startsLine {t : Text} (h : StartsLine t) : t.head? ≠ some '\n' := by
  cases t with
  | nil => simp
  | cons c rest =>
    intro hfeed
    obtain rfl : c = '\n' := Option.some.inj hfeed
    exact h rfl

/-- A text ends in no white space once it is trimmed. -/
theorem isBlank_of_mem_getLast?_trimRight {t : Text} {c : Char} (h : c ∈ (trimRight t).getLast?) :
    isBlank c = false := by
  rw [trimRight, List.getLast?_reverse, Option.mem_def] at h
  have hstop := List.head?_dropWhile_not isBlank t.reverse
  rwa [h] at hstop

/-- A run of line feeds does not reach over the end of a text that ends in none. -/
theorem before_or_behind_of_append_eq {t u front run back : Text} (hrun : ∀ c ∈ run, c = '\n')
    (ht : t.getLast? ≠ some '\n') (h : front ++ (run ++ back) = t ++ u) :
    (∃ rest, t = front ++ (run ++ rest)) ∨
      ∃ start, front = t ++ start ∧ u = start ++ (run ++ back) := by
  rcases List.append_eq_append_iff.mp h with ⟨inner, hinner, hbehind⟩ | ⟨start, hfront, hu⟩
  · rcases List.append_eq_append_iff.mp hbehind with ⟨rest, hrest, -⟩ | ⟨outer, hsplit, hu⟩
    · exact Or.inl ⟨rest, by rw [hinner, hrest]⟩
    · -- What of the run stands in the text would be the end of the text.
      cases hlast : inner.getLast? with
      | none =>
        rw [List.getLast?_eq_none_iff] at hlast
        subst hlast
        refine Or.inr ⟨[], by simp [hinner], ?_⟩
        rw [hu, List.nil_append, hsplit, List.nil_append]
      | some c =>
        have hc : c = '\n' := hrun c (by
          rw [hsplit]
          exact List.mem_append_left _ (List.mem_of_getLast? hlast))
        rw [hinner, List.getLast?_append, hlast, hc] at ht
        exact absurd rfl ht
  · exact Or.inr ⟨start, hfront, hu⟩

end Text

namespace Layout

open Text (IsBlock)

/-- One line feed more than a separator has. -/
def feeds : Text := ['\n', '\n', '\n']

/-- Where a run of characters behind `front` stands in a source that is put together: inside what
stands before the blocks, inside one of the blocks, or inside what stands behind them. -/
inductive Within (head : Text) (blocks : List Text) (tail run front : Text) : Prop
  | head (rest : Text) (h : head = front ++ (run ++ rest))
  | block (before : List Text) (block : Text) (after : List Text) (start rest : Text)
    (hblocks : blocks = before ++ block :: after) (hblock : block = start ++ (run ++ rest))
    (hfront : front = head ++ ((before.map (separator ++ ·)).flatten ++ (separator ++ start)))
  | tail (start rest : Text) (htail : tail = start ++ (run ++ rest))
    (hfront : front = head ++ ((blocks.map (separator ++ ·)).flatten ++ start))

/-- Three line feeds behind a separator start behind all of it. -/
theorem exists_behind_separator {u front back : Text} (hu : u.head? ≠ some '\n')
    (h : front ++ (feeds ++ back) = separator ++ u) :
    ∃ start, front = separator ++ start ∧ u = start ++ (feeds ++ back) := by
  match front with
  | [] =>
    simp only [feeds, separator, List.nil_append, List.cons_append, List.cons.injEq, true_and] at h
    rw [← h] at hu
    exact absurd rfl hu
  | [c] =>
    simp only [feeds, separator, List.nil_append, List.cons_append, List.cons.injEq] at h
    rw [← h.2.2] at hu
    exact absurd rfl hu
  | c :: d :: start =>
    simp only [separator, List.nil_append, List.cons_append, List.cons.injEq] at h
    obtain ⟨rfl, rfl, rfl⟩ := h
    exact ⟨start, rfl, rfl⟩

/-- Three line feeds stand inside one part of what is put together with separators. -/
theorem within_of_append_eq {head tail front back : Text} {blocks : List Text}
    (hhead : head.getLast? ≠ some '\n') (hblocks : ∀ block ∈ blocks, IsBlock block)
    (h : front ++ (feeds ++ back) = head ++ ((blocks.map (separator ++ ·)).flatten ++ tail)) :
    Within head blocks tail feeds front := by
  have hfeeds : ∀ c ∈ feeds, c = '\n' := by simp [feeds]
  induction blocks generalizing head with
  | nil =>
    rcases Text.before_or_behind_of_append_eq hfeeds hhead h with
      ⟨rest, hrest⟩ | ⟨start, hfront, hu⟩
    · exact .head rest hrest
    · exact .tail start back hu hfront
  | cons block others ih =>
    obtain ⟨hblock, hothers⟩ := List.forall_mem_cons.mp hblocks
    have hlast : (head ++ (separator ++ block)).getLast? ≠ some '\n' := by
      rw [← List.append_assoc, List.getLast?_append_of_ne_nil _ hblock.ne_nil]
      exact hblock.last_ne
    have hshift : front ++ (feeds ++ back) = (head ++ (separator ++ block)) ++
        ((others.map (separator ++ ·)).flatten ++ tail) := by
      rw [h, List.map_cons, List.flatten_cons]
      simp only [List.append_assoc]
    cases ih hlast hothers hshift with
    | head rest hrest =>
      -- The part is what stood before, or the first block: the separator between them is too short.
      rcases Text.before_or_behind_of_append_eq hfeeds hhead hrest.symm with
        ⟨rest, hrest⟩ | ⟨start, hfront, hu⟩
      · exact .head rest hrest
      · obtain ⟨inner, hinner, hin⟩ := exists_behind_separator hblock.head_ne hu.symm
        exact .block [] block others inner rest rfl hin (by rw [hfront, hinner]; rfl)
    | block before part after start rest hparts hpart hfront =>
      refine .block (block :: before) part after start rest (by rw [hparts]; rfl) hpart ?_
      rw [hfront, List.map_cons, List.flatten_cons]
      simp only [List.append_assoc]
    | tail start rest htail hfront =>
      refine .tail start rest htail ?_
      rw [hfront, List.map_cons, List.flatten_cons]
      simp only [List.append_assoc]

end Layout

/-! ### The parts of an assembled source -/

/-- The text of a method ends on a line that holds code, and so not with a line feed. -/
theorem Reading.getLast?_text_ne_feed {src : Source} {layout : Layout}
    (h : ofSource src = .complete layout) {m : Method} (hm : m ∈ layout.methods) :
    m.text.getLast? ≠ some '\n' := by
  have hplaced := (tiles_of_complete h).placed_of_mem hm
  have hlength : m.stop ≤ src.text.length := by
    obtain ⟨-, hclose, -⟩ := ofSource_eq_complete h
    exact hplaced.stop_le.trans (Source.closeOf?_bounds hclose).2.le
  have hlt := hplaced.start_lt
  obtain ⟨head, -, previous, place, ending, inner, -, hdeclares, rfl⟩ :=
    exists_head_of_mem_methods h hm
  have hline := ClassBody.endsInCodeLine_of_extent? hdeclares.extent_eq
  change head.start < layout.body.afterTrailingComment src inner at hlt
  change layout.body.afterTrailingComment src inner ≤ src.text.length at hlength
  change (src.text.extract head.start (layout.body.afterTrailingComment src inner)).getLast? ≠ _
  obtain ⟨last, hstop⟩ := Nat.exists_eq_add_of_lt (Nat.zero_lt_of_lt hlt)
  rw [Nat.zero_add] at hstop
  rw [hstop] at hline hlt hlength ⊢
  rw [getLast?_extract hlt hlength, Nat.add_sub_cancel, src.getElem?_text]
  have hglyph : last < src.glyphs.length := by rwa [src.length_glyphs]
  rw [List.take_add_one, List.getElem?_eq_getElem hglyph, Option.toList_some] at hline
  rw [List.getElem?_eq_getElem hglyph, Option.map_some]
  exact fun hfeed ↦ hline.not_feed (Option.some.inj hfeed)

/-- A method is a block in whatever order it is shown. -/
theorem Reading.isBlock_rendered {src : Source} {layout : Layout}
    (h : ofSource src = .complete layout) {m : Method} (hm : m ∈ layout.methods) :
    Text.IsBlock m.rendered := by
  have hstarts := startsLine_text h hm
  have hne : m.text ≠ [] := List.ne_nil_of_mem (parenthesis_mem_text h hm)
  rw [Method.rendered_eq, Text.dropEmptyLines, Text.dropEmptyLinesFrom_of_startsLine _ hstarts]
  refine ⟨List.append_ne_nil_of_right_ne_nil _ hne, ?_, ?_⟩
  · unfold Method.shownLeading
    split_ifs with hblank
    · exact Text.head?_ne_feed_of_startsLine hstarts
    · have hleading : Text.dropEmptyLines m.leading ≠ [] := by
        intro hnil
        rw [hnil] at hblank
        exact hblank rfl
      rw [List.head?_append_of_ne_nil _ hleading]
      exact Text.head?_ne_feed_of_startsLine (Text.startsLine_dropEmptyLines m.leading)
  · rw [List.getLast?_append_of_ne_nil _ hne]
    exact getLast?_text_ne_feed h hm

namespace Segment

/-- A gap that is shown is a block. -/
theorem isBlock_renderedGap {gap : Text} (h : renderedGap gap ≠ []) :
    Text.IsBlock (renderedGap gap) := by
  refine ⟨h, ?_, fun hlast ↦ ?_⟩
  · obtain ⟨blanks, hsplit, -⟩ := Text.exists_eq_trimRight_append (Text.dropEmptyLines gap)
    have hstarts := Text.head?_ne_feed_of_startsLine (Text.startsLine_dropEmptyLines gap)
    rw [hsplit] at hstarts
    rwa [← List.head?_append_of_ne_nil (renderedGap gap) h]
  · exact absurd (Text.isBlank_of_mem_getLast?_trimRight hlast) (by decide)

/-- Only a gap that is more than white space is shown. -/
theorem allBlank_eq_false_of_renderedGap_ne_nil {gap : Text} (h : renderedGap gap ≠ []) :
    Text.allBlank gap = false := by
  by_contra hblank
  rw [Bool.not_eq_false] at hblank
  refine h (Text.trimRight_eq_nil fun c hc ↦ ?_)
  exact List.all_eq_true.mp hblank c ((Text.dropEmptyLines_suffix gap).subset hc)

end Segment

namespace Layout

theorem separator_append_joined_of_ne_nil {blocks : List Text} (h : blocks ≠ []) :
    separator ++ Text.joined separator blocks = (blocks.map (separator ++ ·)).flatten := by
  obtain ⟨init, last, rfl⟩ : ∃ init last, blocks = init ++ [last] :=
    ⟨blocks.dropLast, blocks.getLast h, (List.dropLast_append_getLast h).symm⟩
  rw [separator_append_joined, List.map_append, List.flatten_append]
  simp

theorem trimRight_head_ne_nil {text : Text} {layout : Layout}
    (h : Reading.ofText text = .complete layout) (hmethods : layout.methods ≠ []) :
    Text.trimRight layout.head ≠ [] := by
  have hopening := opening_of_complete h hmethods
  have hbrace := Source.getLast?_of_opens hopening.length_eq hopening.opens
  rw [trimRight_head hopening]
  exact List.append_ne_nil_of_left_ne_nil (List.ne_nil_of_mem (List.mem_of_getLast? hbrace)) _

/-- The source that a layout is put together to, in whatever order its methods are placed, is what
stands before the methods, the blocks with one separator before each, and what stands behind the
methods. The first of these is not empty and ends in no white space; every block is a method or a
gap that is more than white space, and begins and ends with no line feed. Three line feeds in
succession therefore stand inside one of these parts. -/
theorem assemble?_separated {text : Text} {layout : Layout}
    (h : Reading.ofText text = .complete layout) (hmethods : layout.methods ≠ [])
    {order : List Method} (horder : order.Perm layout.methods) :
    ∃ blocks result, layout.assemble? order = some result ∧
      blocks = (blocksFor layout.segments order).map Prod.fst ∧
      result = Text.trimRight layout.head ++ separator ++ Text.joined separator blocks ++
        layout.tail ∧
      Text.trimRight layout.head ≠ [] ∧
      (∀ c ∈ (Text.trimRight layout.head).getLast?, Text.isBlank c = false) ∧
      (∀ block ∈ blocks, Text.IsBlock block ∧ ((∃ m ∈ order, block = m.rendered) ∨
        ∃ gap ∈ gaps layout.segments, Text.allBlank gap = false ∧
          block = Segment.renderedGap gap)) ∧
      ∀ front back, result = front ++ (feeds ++ back) →
        Within (Text.trimRight layout.head) blocks layout.tail feeds front := by
  set blocks := (blocksFor layout.segments order).map Prod.fst with hblocks
  have hparts : ∀ block ∈ blocks, Text.IsBlock block ∧ ((∃ m ∈ order, block = m.rendered) ∨
      ∃ gap ∈ gaps layout.segments, Text.allBlank gap = false ∧
        block = Segment.renderedGap gap) := by
    intro block hblock
    obtain ⟨entry, hentry, rfl⟩ := List.mem_map.mp hblock
    rcases mem_blocksFor hentry with ⟨m, hm, rfl⟩ | ⟨gap, hgap, hshown, rfl⟩
    · exact ⟨Reading.isBlock_rendered h (horder.subset hm), Or.inl ⟨m, hm, rfl⟩⟩
    · exact ⟨Segment.isBlock_renderedGap hshown, Or.inr
        ⟨gap, hgap, Segment.allBlank_eq_false_of_renderedGap_ne_nil hshown, rfl⟩⟩
  have hassembled : layout.assemble? order = some (Text.trimRight layout.head ++ separator ++
      Text.joined separator blocks ++ layout.tail) := by
    rw [assemble?, blocks?_eq_some horder.length_eq.ge, Option.map_some]
  have hsome : blocks ≠ [] := by
    obtain ⟨init, -, last, -, hconcat, -⟩ := exists_assembled h hmethods horder.length_eq
    rw [hblocks, hconcat]
    simp
  have hlast : ∀ c ∈ (Text.trimRight layout.head).getLast?, Text.isBlank c = false :=
    fun c hc ↦ Text.isBlank_of_mem_getLast?_trimRight hc
  have hnofeed : (Text.trimRight layout.head).getLast? ≠ some '\n' :=
    fun hfeed ↦ absurd (hlast _ hfeed) (by decide)
  refine ⟨blocks, _, hassembled, rfl, rfl, trimRight_head_ne_nil h hmethods, hlast, hparts,
    fun front back hfeeds ↦ ?_⟩
  have hspread : front ++ (feeds ++ back) = Text.trimRight layout.head ++
      ((blocks.map (separator ++ ·)).flatten ++ layout.tail) := by
    rw [← hfeeds, List.append_assoc (Text.trimRight _), separator_append_joined_of_ne_nil hsome,
      List.append_assoc]
  exact within_of_append_eq hnofeed (fun block hblock ↦ (hparts block hblock).1) hspread

/-- Empty lines around methods and a field and inside of them, one of them with a form feed. -/
def emptyLinesSource : Text :=
  ("class C \x7b\n\x0c\n\n  void b() \x7b\n\n\n\n  \x7d\n\n\n\n  int x; /* x\n\n\n\n */ int y;" ++
    "\n\n\n\n  // a\n  void a() \x7b\x7d\n\n\n\n\x7d\n").toList

/-- The same with its methods in reverse order. -/
def emptyLinesReversed : Text :=
  ("class C \x7b\n\n  // a\n  void a() \x7b\x7d\n\n  int x; /* x\n\n\n\n */ int y;\n\n" ++
    "  void b() \x7b\n\n\n\n  \x7d\n\n\n\n\x7d\n").toList

/-- Of its empty lines those in the comment are left as they were. -/
theorem emptyLinesSource_separated :
    ∃ layout blocks, Reading.ofText emptyLinesSource = .complete layout ∧
      layout.methods.length = 2 ∧ layout.methods.reverse.Perm layout.methods ∧
      layout.assemble? layout.methods.reverse = some emptyLinesReversed ∧ blocks.length = 3 ∧
      (∀ block ∈ blocks, Text.IsBlock block) ∧
      emptyLinesReversed =
        emptyLinesReversed.take 46 ++ (feeds ++ emptyLinesReversed.drop 49) ∧
      Within (Text.trimRight layout.head) blocks layout.tail feeds
        (emptyLinesReversed.take 46) := by
  have hsome : (Reading.ofText emptyLinesSource).layout?.any fun layout ↦
      decide (layout.methods.length = 2 ∧
        layout.assemble? layout.methods.reverse = some emptyLinesReversed ∧
        (blocksFor layout.segments layout.methods.reverse).length = 3) := by
    decide +kernel
  obtain ⟨layout, h, hlayout⟩ := Reading.exists_complete_of_any hsome
  obtain ⟨hlength, hreversed, hthree⟩ := of_decide_eq_true hlayout
  have hmethods : layout.methods ≠ [] := by
    intro hnil
    rw [hnil] at hlength
    cases hlength
  have hperm := List.reverse_perm layout.methods
  obtain ⟨blocks, result, hresult, hblocks, -, -, -, hparts, hwithin⟩ :=
    assemble?_separated h hmethods hperm
  obtain rfl : emptyLinesReversed = result := by
    rw [hreversed] at hresult
    exact Option.some.inj hresult
  have hfeeds : emptyLinesReversed =
      emptyLinesReversed.take 46 ++ (feeds ++ emptyLinesReversed.drop 49) := by decide +kernel
  exact ⟨layout, blocks, h, hlength, hperm, hreversed, by rw [hblocks, List.length_map, hthree],
    fun block hblock ↦ (hparts block hblock).1, hfeeds, hwithin _ _ hfeeds⟩

end Layout

end MemberOrder
