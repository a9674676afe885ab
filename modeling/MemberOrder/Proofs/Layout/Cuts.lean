import MemberOrder.Proofs.Layout.Sweep
import MemberOrder.Proofs.Layout.Tiling
import MemberOrder.Proofs.Source.Modes
import MemberOrder.Proofs.Source.Nesting

/-!
Where methods are cut out of their source. The lines that lead a method end below a line that holds
code: the walk up from the method stops at such a line, at the latest at the one on which the member
before the method ends. So a method is cut out in the middle of a comment or literal only if that
line, behind its code, runs over into the next one.
-/

set_option autoImplicit false

namespace MemberOrder

/-! ### Lines -/

theorem Glyph.char_ne_feed_of_isSolid {g : Glyph} (h : g.isSolid = true) : g.char ≠ '\n' := by
  intro hfeed
  rw [Glyph.isSolid, Glyph.isBlank, hfeed] at h
  simp [show Text.isBlank '\n' = true by decide] at h

namespace Source

/-- What stands on the last line of a stretch. -/
def lastLine (stretch : List Glyph) : List Glyph := stretch.rtakeWhile (·.char != '\n')

theorem lastLine_append {line : List Glyph} (h : ∀ g ∈ line, g.char ≠ '\n')
    (front : List Glyph) : lastLine (front ++ line) = lastLine front ++ line := by
  unfold lastLine List.rtakeWhile
  rw [List.reverse_append, List.takeWhile_append_of_pos, List.reverse_append, List.reverse_reverse]
  intro g hg
  simpa using h g (List.mem_reverse.mp hg)

/-- Does the last line of the stretch hold code? -/
def EndsInCodeLine (stretch : List Glyph) : Prop := (lastLine stretch).any Glyph.isSolid = true

namespace EndsInCodeLine

variable {front line : List Glyph}

theorem append_line (h : EndsInCodeLine front) (hline : ∀ g ∈ line, g.char ≠ '\n') :
    EndsInCodeLine (front ++ line) := by
  unfold EndsInCodeLine at h ⊢
  rw [lastLine_append hline, List.any_append, h, Bool.true_or]

theorem of_line (h : line.any Glyph.isSolid = true) (hline : ∀ g ∈ line, g.char ≠ '\n')
    (front : List Glyph) : EndsInCodeLine (front ++ line) := by
  unfold EndsInCodeLine
  rw [lastLine_append hline, List.any_append, h, Bool.or_true]

/-- Behind code on its line there is no line feed. -/
theorem not_feed {g : Glyph} (h : EndsInCodeLine (front ++ [g])) : g.char ≠ '\n' := by
  intro hfeed
  rw [EndsInCodeLine, lastLine, List.rtakeWhile_concat_neg _ _ _ (by simp [hfeed])] at h
  exact absurd h (by simp)

end EndsInCodeLine

/-- Before the line feed that may close it a line holds none. -/
theorem exists_eq_of_mem_linesOf {line stretch : List Glyph} (h : line ∈ linesOf stretch) :
    ∃ content, (∀ g ∈ content, g.char ≠ '\n') ∧
      (line = content ∨ ∃ feed : Glyph, feed.char = '\n' ∧ line = content ++ [feed]) := by
  fun_induction linesOf stretch generalizing line with
  | case1 => simp at h
  | case2 g rest hfeed ih =>
    rcases List.mem_cons.mp h with rfl | h
    · exact ⟨[], by simp, Or.inr ⟨g, hfeed, rfl⟩⟩
    · exact ih h
  | case3 g rest hfeed hnone ih =>
    rw [List.mem_singleton.mp h]
    exact ⟨[g], by simpa using hfeed, Or.inl rfl⟩
  | case4 g rest hfeed first others hlines ih =>
    rcases List.mem_cons.mp h with rfl | h
    · obtain ⟨content, hcontent, hline⟩ := ih (hlines ▸ List.mem_cons_self)
      refine ⟨g :: content, List.forall_mem_cons.mpr ⟨hfeed, hcontent⟩, ?_⟩
      rcases hline with rfl | ⟨feed, hchar, rfl⟩
      · exact Or.inl rfl
      · exact Or.inr ⟨feed, hchar, rfl⟩
    · exact ih (hlines ▸ List.mem_cons_of_mem _ h)

theorem forall_ne_feed_of_mem_linesOf {content stretch : List Glyph} {feed : Glyph}
    (h : content ++ [feed] ∈ linesOf stretch) (hfeed : feed.char = '\n') :
    ∀ g ∈ content, g.char ≠ '\n' := by
  obtain ⟨found, hfound, hline | ⟨other, -, hline⟩⟩ := exists_eq_of_mem_linesOf h
  · exact absurd hfeed (hfound feed (hline ▸ List.mem_concat_self))
  · rwa [(List.append_inj' hline rfl).1]

/-- A line that does not lead a declaration holds code before the line feed that closes it. -/
theorem any_isSolid_of_not_isLeadingLine {content : List Glyph} {feed : Glyph}
    (h : isLeadingLine (content ++ [feed]) = false) (hfeed : feed.char = '\n') :
    content.any Glyph.isSolid = true := by
  simp only [isLeadingLine, Bool.or_eq_false_iff, List.all_eq_false, Bool.not_eq_true',
    Bool.not_eq_false] at h
  obtain ⟨⟨g, hg, hsolid⟩, -⟩ := h
  rcases List.mem_append.mp hg with hg | hg
  · exact List.any_eq_true.mpr ⟨g, hg, hsolid⟩
  · rw [List.mem_singleton.mp hg] at hsolid
    exact absurd hfeed (Glyph.char_ne_feed_of_isSolid hsolid)

/-- The lines that lead a declaration begin below a line that holds code, if the stretch before it
begins on such a line. -/
theorem endsInCodeLine_of_leadingIn {front stretch before : List Glyph} {feed : Glyph}
    (hfront : EndsInCodeLine front) (hfeed : feed.char = '\n')
    (hsplit : stretch = before ++ [feed] ++ leadingIn false stretch) :
    EndsInCodeLine (front ++ before) := by
  rw [leadingIn_eq] at hsplit
  simp only [Bool.false_eq_true, if_false] at hsplit
  cases hlines : linesOf stretch with
  | nil =>
    rw [← flatten_linesOf stretch, hlines] at hsplit
    simp at hsplit
  | cons first others =>
    rw [hlines, List.drop_one, List.tail_cons] at hsplit
    have hothers := List.rdropWhile_append_rtakeWhile (p := isLeadingLine) (l := others)
    set kept := others.rdropWhile isLeadingLine with hkept
    have hbefore : before ++ [feed] = first ++ kept.flatten := by
      have hflat := flatten_linesOf stretch
      rw [hlines, List.flatten_cons, ← hothers, List.flatten_append, ← List.append_assoc] at hflat
      exact List.append_cancel_right (hsplit.symm.trans hflat.symm)
    have hmem {line : List Glyph} (hline : line ∈ first :: kept) : line ∈ linesOf stretch := by
      rw [hlines, ← hothers]
      exact List.cons_subset_cons first (List.subset_append_left _ _) hline
    by_cases hnone : kept = []
    · -- The walk went up to the line on which the stretch begins.
      rw [hnone, List.flatten_nil, List.append_nil] at hbefore
      exact hfront.append_line
        (forall_ne_feed_of_mem_linesOf (hbefore ▸ hmem List.mem_cons_self) hfeed)
    · -- The walk stopped at a line that leads nothing, and so holds code.
      have hstop : isLeadingLine (kept.getLast hnone) = false := by
        simpa using List.rdropWhile_last_not isLeadingLine others hnone
      have hlast := hmem (List.mem_cons_of_mem _ (List.getLast_mem hnone))
      rw [← List.dropLast_append_getLast hnone, List.flatten_append, List.flatten_singleton] at hbefore
      rcases List.eq_nil_or_concat' (kept.getLast hnone) with hempty | ⟨content, last, hcontent⟩
      · exact absurd hempty (linesOf_ne_nil hlast)
      · rw [hcontent, ← List.append_assoc, ← List.append_assoc] at hbefore
        obtain ⟨rfl, hsame⟩ := List.append_inj' hbefore rfl
        rw [hcontent, ← (List.cons_eq_cons.mp hsame).1] at hstop hlast
        rw [← List.append_assoc]
        exact EndsInCodeLine.of_line (any_isSolid_of_not_isLeadingLine hstop hfeed)
          (forall_ne_feed_of_mem_linesOf hlast hfeed) _

/-! ### The line above a declaration -/

variable {src : Source}

theorem endsInCodeLine_take_succ {i : Nat} {g : Glyph} (h : src.glyphs[i]? = some g)
    (hsolid : g.isSolid = true) : EndsInCodeLine (src.glyphs.take (i + 1)) := by
  rw [List.take_add_one, h]
  refine EndsInCodeLine.of_line (by simpa using hsolid) ?_ _
  simpa using Glyph.char_ne_feed_of_isSolid hsolid

/-- Does a line begin at the position? -/
def beginsLineAt (src : Source) : Nat → Bool
  | 0 => true
  | i + 1 => src.text[i]? == some '\n'

theorem beginsLineAt_of_feed {i : Nat} (h : src.text[i - 1]? = some '\n') :
    src.beginsLineAt i = true := by
  cases i with
  | zero => rfl
  | succ i => exact beq_iff_eq.mpr h

/-- No line begins behind code on its line. -/
theorem beginsLineAt_eq_false {i : Nat} (h : EndsInCodeLine (src.glyphs.take i)) :
    src.beginsLineAt i = false := by
  cases i with
  | zero => exact absurd h (by simp [EndsInCodeLine, lastLine])
  | succ i =>
    refine beq_false_of_ne fun hfeed ↦ ?_
    obtain ⟨g, hg, hchar⟩ := Option.map_eq_some_iff.mp (src.getElem?_text i ▸ hfeed)
    rw [List.take_add_one, hg] at h
    exact h.not_feed hchar

theorem leadingLines_eq_map (src : Source) (floor start : Nat) :
    src.leadingLines floor start =
      (leadingIn (src.beginsLineAt floor) (src.glyphs.extract floor start)).map Glyph.char := by
  cases floor <;> rfl

/-- The leading lines of a declaration as they are read in the source. -/
theorem extract_leadingLines (src : Source) {floor start : Nat} (hfloor : floor ≤ start)
    (hstart : start ≤ src.text.length) :
    src.glyphs.extract (start - (src.leadingLines floor start).length) start =
      leadingIn (src.beginsLineAt floor) (src.glyphs.extract floor start) := by
  rw [leadingLines_eq_map, List.length_map]
  set leading := leadingIn (src.beginsLineAt floor) (src.glyphs.extract floor start) with hset
  obtain ⟨before, hsplit, -⟩ :=
    exists_append_leadingIn (src.beginsLineAt floor) (src.glyphs.extract floor start)
  rw [← hset] at hsplit
  have hlength := congrArg List.length hsplit
  rw [length_extract _ hfloor (by rwa [src.length_glyphs]), List.length_append] at hlength
  have hcut := extract_append_extract src.glyphs (show floor ≤ start - leading.length by omega)
    (Nat.sub_le start leading.length)
  refine (List.append_inj' (hcut.trans hsplit) ?_).2
  rw [length_extract _ (Nat.sub_le _ _) (by rwa [src.length_glyphs])]
  omega

theorem text_extract_leadingLines (src : Source) {floor start : Nat} (hfloor : floor ≤ start)
    (hstart : start ≤ src.text.length) :
    src.text.extract (start - (src.leadingLines floor start).length) start =
      src.leadingLines floor start := by
  rw [← src.map_char_extract, src.extract_leadingLines hfloor hstart, src.leadingLines_eq_map]

/-- The line above the leading lines of a declaration holds code, if the line does on which what
cannot lead it ends. -/
theorem endsInCodeLine_above {floor start : Nat} (hfloor : floor ≤ start)
    (hstart : start ≤ src.text.length) (hcode : EndsInCodeLine (src.glyphs.take floor))
    (hfeed : src.text[start - (src.leadingLines floor start).length - 1]? = some '\n') :
    EndsInCodeLine
      (src.glyphs.take (start - (src.leadingLines floor start).length - 1)) := by
  have hpart : src.beginsLineAt floor = false := beginsLineAt_eq_false hcode
  have hleading := src.extract_leadingLines hfloor hstart
  have hbehind : floor < start - (src.leadingLines floor start).length := by
    refine Nat.lt_of_le_of_ne ?_ fun heq ↦ ?_
    · have hlength := src.length_leadingLines_le floor start
      omega
    · rw [← heq] at hfeed
      rw [beginsLineAt_of_feed hfeed] at hpart
      cases hpart
  obtain ⟨i, hi⟩ := Nat.exists_eq_add_of_lt hbehind
  rw [hi, Nat.add_sub_cancel] at hfeed ⊢
  rw [hi, hpart] at hleading
  obtain ⟨feed, hglyph, hchar⟩ := Option.map_eq_some_iff.mp (src.getElem?_text _ ▸ hfeed)
  rw [← take_append_extract src.glyphs (Nat.le_add_right floor i)]
  have hsplit : src.glyphs.extract floor start = src.glyphs.extract floor (floor + i) ++ [feed] ++
      leadingIn false (src.glyphs.extract floor start) := by
    rw [← hleading, ← extract_eq_concat hglyph (Nat.le_add_right floor i)]
    exact (extract_append_extract _ (by omega) (by omega)).symm
  exact endsInCodeLine_of_leadingIn hcode hchar hsplit

end Source

namespace Terminator

/-- The character that ends a declaration. -/
def char : Terminator → Char
  | .body => '\x7b'
  | .semicolon => ';'

theorem head?_of_first? {t : Text} {terminator : Terminator} (h : first? t = some terminator) :
    t.head? = some terminator.char := by
  obtain ⟨c, hc, hterminator⟩ := Option.bind_eq_some_iff.mp h
  rw [hc]
  unfold ofChar? at hterminator
  split at hterminator
  · cases hterminator
    rfl
  · cases hterminator
    rfl
  · cases hterminator

end Terminator

namespace ClassBody

variable {src : Source} {body : ClassBody} {skipped : List Region}

/-- A declaration ends in code. -/
theorem getElem?_of_declarationEnd? {head : MethodHead} {ending : DeclarationEnd}
    (h : body.declarationEnd? src head = some ending) :
    src.glyphs[ending.position]? = some (Glyph.code ending.terminator.char) := by
  obtain ⟨-, -, offset, hfind, hposition, hcode⟩ := declarationEnd?_eq_some h
  have hlt := Terminator.offset_lt_of_find? hfind
  rw [List.extract_eq_take_drop, List.length_take, List.length_drop] at hlt
  have hchar := Terminator.head?_of_first? (Terminator.first?_of_find? hfind)
  rw [List.head?_drop, getElem?_extract _ (by omega), ← hposition, src.getElem?_text] at hchar
  obtain ⟨c, hglyph⟩ := Source.exists_code_of_isCodeAt hcode
  rw [hglyph, Option.map_some, Option.some.injEq] at hchar
  rw [hglyph, ← hchar]
  rfl

/-- A method ends with a semicolon or a brace that are code, its trailing comment left out. -/
theorem exists_glyph_of_extent? {head : MethodHead} {ending : DeclarationEnd} {inner : Nat}
    (h : body.extent? src skipped head = some (ending, inner)) :
    ∃ i c, inner = i + 1 ∧ src.glyphs[i]? = some (Glyph.code c) ∧ (c = ';' ∨ c = '\x7d') := by
  obtain ⟨-, hending, -, hinner⟩ := extent?_eq_some h
  unfold methodEnd? at hinner
  split at hinner
  · rename_i hterminator
    cases hinner
    refine ⟨ending.position, ';', rfl, ?_, Or.inl rfl⟩
    rw [getElem?_of_declarationEnd? hending, hterminator]
    rfl
  · obtain ⟨close, hbrace, rfl⟩ := Option.map_eq_some_iff.mp hinner
    obtain ⟨hbrace, -⟩ := Option.filter_eq_some_iff.mp hbrace
    obtain ⟨hclose, -⟩ := innerClose?_eq_some hbrace
    exact ⟨close, '\x7d', rfl, Source.getElem?_of_closeOf? hclose, Or.inr rfl⟩

/-- A comment that is taken in stands on the line behind a method, which then ends in code. -/
theorem exists_trailing (src : Source) (body : ClassBody) (stop : Nat) :
    ∃ line, src.glyphs.take (body.afterTrailingComment src stop) = src.glyphs.take stop ++ line ∧
      (∀ g ∈ line, g.char ≠ '\n' ∧ g.isSolid = false) ∧
      (body.afterTrailingComment src stop = stop ∨
        src.glyphs[body.afterTrailingComment src stop]? = some (Glyph.code '\n')) := by
  unfold afterTrailingComment
  simp only
  split_ifs with hline
  · set stretch := src.glyphs.extract stop body.closeBrace with hstretch
    set line := stretch.takeWhile (·.char != '\n') with htaken
    simp only [Bool.and_eq_true, decide_eq_true_eq] at hline
    obtain ⟨⟨⟨hlt, -⟩, hmute⟩, hcode⟩ := hline
    refine ⟨line, ?_, fun g hg ↦ ⟨?_, ?_⟩, Or.inr ?_⟩
    · have hbegins : line <+: src.glyphs.drop stop := by
        refine (List.takeWhile_prefix _).trans ?_
        rw [hstretch, List.extract_eq_take_drop]
        exact List.take_prefix _ _
      rw [List.take_add, ← List.prefix_iff_eq_take.mp hbegins]
    · simpa using List.mem_takeWhile_imp hg
    · simpa using List.all_eq_true.mp hmute g hg
    · obtain ⟨c, hglyph⟩ := Source.exists_code_of_isCodeAt hcode
      -- The glyph behind the line is where the search for the line feed stopped.
      have hat : stretch[line.length]? = some (Glyph.code c) := by
        rw [hstretch, getElem?_extract _ (by omega), hglyph]
      rw [← List.takeWhile_append_dropWhile (p := fun g : Glyph ↦ g.char != '\n') (l := stretch),
        ← htaken, List.getElem?_append_right (Nat.le_refl _), Nat.sub_self,
        ← List.head?_eq_getElem?] at hat
      have hstop := List.head?_dropWhile_not (fun g : Glyph ↦ g.char != '\n') stretch
      rw [hat] at hstop
      have hchar : c = '\n' := by simpa [Glyph.code] using hstop
      rw [hglyph, hchar]
  · exact ⟨[], by simp, by simp, Or.inl rfl⟩

/-- A comment that is taken in stands on the line of the method, and holds no code. -/
theorem mute_of_mem_trailing (src : Source) {stop : Nat} (h : stop ≤ body.closeBrace) :
    ∀ g ∈ src.glyphs.extract stop (body.afterTrailingComment src stop),
      g.char ≠ '\n' ∧ g.isSolid = false := by
  obtain ⟨line, htake, hline, -⟩ := exists_trailing src body stop
  obtain ⟨hle, -⟩ := afterTrailingComment_bounds src h
  rw [← take_append_extract _ hle, List.append_cancel_left_eq] at htake
  rw [htake]
  exact hline

/-- The line on which a method ends holds code. -/
theorem endsInCodeLine_of_extent? {head : MethodHead} {ending : DeclarationEnd} {inner : Nat}
    (h : body.extent? src skipped head = some (ending, inner)) :
    Source.EndsInCodeLine (src.glyphs.take (body.afterTrailingComment src inner)) := by
  obtain ⟨line, htake, hline, -⟩ := exists_trailing src body inner
  obtain ⟨i, c, rfl, hglyph, hc⟩ := exists_glyph_of_extent? h
  rw [htake]
  refine Source.EndsInCodeLine.append_line (Source.endsInCodeLine_take_succ hglyph ?_)
    fun g hg ↦ (hline g hg).1
  rcases hc with rfl | rfl <;> decide

/-- A region that is passed over ends behind a brace. -/
theorem exists_stop_of_mem_skippedRegions {region : Region}
    (h : region ∈ body.skippedRegions src) :
    ∃ close, region.stop = close + 1 ∧ src.glyphs[close]? = some (Glyph.code '\x7d') := by
  have hinner {brace close : Nat} (hclose : body.innerClose? src brace = some close) :
      src.glyphs[close]? = some (Glyph.code '\x7d') :=
    Source.getElem?_of_closeOf? (innerClose?_eq_some hclose).1
  have hinitializer {taken : List Region} {atBoundary : Bool} {resume : Nat}
      {heads : List InitializerHead}
      (h : region ∈ body.initializerRegions src taken atBoundary resume heads) :
      ∃ close, region.stop = close + 1 ∧ src.glyphs[close]? = some (Glyph.code '\x7d') := by
    rw [initializerRegions_eq_sweep] at h
    obtain ⟨_, _, head, -, hfound⟩ := exists_of_mem_sweep h
    obtain ⟨close, hclose, rfl⟩ := mem_decideInitializer hfound
    exact ⟨close, rfl, hinner hclose⟩
  unfold skippedRegions at h
  simp only [List.mem_mergeSort, List.mem_append] at h
  rcases h with (h | h) | h
  · rw [typeRegions_eq_sweep] at h
    obtain ⟨_, _, header, -, hfound⟩ := exists_of_mem_sweep h
    obtain ⟨close, hclose, rfl⟩ := mem_decideType hfound
    obtain ⟨brace, -, hclose⟩ := Option.bind_eq_some_iff.mp hclose
    exact ⟨close, rfl, hinner hclose⟩
  · exact hinitializer h
  · exact hinitializer h

end ClassBody

namespace Reading

open Source

/-- The line on which what cannot lead a method ends holds code. -/
theorem endsInCodeLine_floorBefore {src : Source} {layout : Layout}
    (h : ofSource src = .complete layout) {front back : List Method} {m : Method}
    (hsplit : layout.methods = front ++ m :: back) :
    EndsInCodeLine (src.glyphs.take (layout.floorBefore front m.start)) := by
  obtain ⟨-, hclose, -⟩ := ofSource_eq_complete h
  refine ClassBody.leadingFloor_induction (P := fun i ↦ EndsInCodeLine (src.glyphs.take i))
    ?_ fun region hregion _ ↦ ?_
  · rcases List.eq_nil_or_concat' front with rfl | ⟨others, last, rfl⟩
    · exact endsInCodeLine_take_succ (getElem?_opening_of_closeOf? hclose) (by decide)
    · rw [List.append_assoc] at hsplit
      obtain ⟨head, -, place, ending, inner, -, hdeclares, rfl⟩ := exists_declared h hsplit
      rw [Method.lastStop_concat]
      exact ClassBody.endsInCodeLine_of_extent? hdeclares.extent_eq
  · obtain ⟨close, hstop, hglyph⟩ :=
      ClassBody.exists_stop_of_mem_skippedRegions (skipped_of_complete h ▸ hregion)
    rw [hstop]
    exact endsInCodeLine_take_succ hglyph (by decide)

/-- The line above the leading lines of a method holds code. -/
theorem endsInCodeLine_above {src : Source} {layout : Layout} (h : ofSource src = .complete layout)
    {m : Method} (hm : m ∈ layout.methods) :
    Source.EndsInCodeLine (src.glyphs.take (m.leadingStart - 1)) := by
  obtain ⟨front, back, hsplit⟩ := List.append_of_mem hm
  obtain ⟨-, hclose, -⟩ := ofSource_eq_complete h
  have hplaced := (tiles_of_complete h).placed_of_mem hm
  have hfeed := hplaced.lineFeed_before
  obtain ⟨hfloor, hleading⟩ := leading_eq_leadingLines h hsplit
  rw [Method.leadingStart, hleading] at hfeed ⊢
  exact Source.endsInCodeLine_above hfloor
    (hplaced.start_lt.le.trans (hplaced.stop_le.trans (Source.closeOf?_bounds hclose).2.le))
    (endsInCodeLine_floorBefore h hsplit) hfeed

/-- The reader is in code where a method with its leading lines begins exactly if the line feed
before it is code. That line feed ends a line that holds code, so it is none only if a comment, a
text block or a literal that began behind code runs over into the lines of the method, and is cut
in two there. -/
theorem modeAfter_leadingStart_eq_code_iff {text : Text} {layout : Layout}
    (h : ofText text = .complete layout) {m : Method} (hm : m ∈ layout.methods) :
    (modeAfter .code (text.take m.leadingStart) = .code ↔
        (Source.ofText text).isCodeAt (m.leadingStart - 1) = true) ∧
      text[m.leadingStart - 1]? = some '\n' ∧
      (lastLine ((Source.ofText text).glyphs.take (m.leadingStart - 1))).any Glyph.isSolid = true ∧
      (Source.ofText text).glyphs = scan .code (text.take m.leadingStart) ++
        scan (modeAfter .code (text.take m.leadingStart)) (text.drop m.leadingStart) := by
  have hplaced := (tiles_of_complete h).placed_of_mem hm
  obtain ⟨i, hi, hfeed⟩ := hplaced.exists_leadingStart_eq
  refine ⟨?_, hplaced.lineFeed_before, endsInCodeLine_above h hm, ?_⟩
  · rw [hi, Nat.add_sub_cancel]
    exact (Source.ofText text).modeAfter_take_eq_code_iff hfeed
  · rw [hi]
    exact (Source.ofText text).glyphs_eq_append ((Source.ofText text).endsSign_of_feed hfeed)

/-- A method of the source with the documented method is read from code on, and with it the comment
that documents it. -/
theorem twoMethodSource_cut :
    ∃ layout, ofText twoMethodSource = .complete layout ∧ ∃ m ∈ layout.methods,
      m.leading = "  /** Counts. */\n".toList ∧
      (Source.ofText twoMethodSource).isCodeAt (m.leadingStart - 1) = true ∧
      modeAfter .code (twoMethodSource.take m.leadingStart) = .code := by
  have hsome : (ofText twoMethodSource).layout?.any fun layout ↦ layout.methods.any fun m ↦
      m.leading == "  /** Counts. */\n".toList &&
        (Source.ofText twoMethodSource).isCodeAt (m.leadingStart - 1) := by decide +kernel
  obtain ⟨layout, h, hmethods⟩ := exists_complete_of_any hsome
  obtain ⟨m, hm, hfound⟩ := List.any_eq_true.mp hmethods
  rw [Bool.and_eq_true, beq_iff_eq] at hfound
  obtain ⟨hleading, hcode⟩ := hfound
  exact ⟨layout, h, m, hm, hleading, hcode,
    (modeAfter_leadingStart_eq_code_iff h hm).1.mpr hcode⟩

/-- A comment that begins on the last line of a method and ends on a line of its own. -/
def commentAcrossLinesSource : Text :=
  ("class C \x7b\n  void b() \x7b\x7d /* foo\n  bar */\n" ++
    "  void a() \x7b\x7d\n\x7d\n").toList

/-- The end of that comment leads the next method, which is cut out in the middle of it. -/
theorem commentAcrossLinesSource_cut :
    ∃ layout, ofText commentAcrossLinesSource = .complete layout ∧ ∃ m ∈ layout.methods,
      m.leading = "  bar */\n".toList ∧
      modeAfter .code (commentAcrossLinesSource.take m.leadingStart) = .blockComment := by
  have hsome : (ofText commentAcrossLinesSource).layout?.any fun layout ↦
      layout.methods.any fun m ↦ m.leading == "  bar */\n".toList &&
        decide (modeAfter .code (commentAcrossLinesSource.take m.leadingStart) = .blockComment) := by
    decide +kernel
  obtain ⟨layout, h, hmethods⟩ := exists_complete_of_any hsome
  obtain ⟨m, hm, hfound⟩ := List.any_eq_true.mp hmethods
  rw [Bool.and_eq_true, beq_iff_eq, decide_eq_true_eq] at hfound
  exact ⟨layout, h, m, hm, hfound⟩

end Reading

end MemberOrder
