import MemberOrder.Proofs.Layout.Cuts

/-!
How deep braces nest at the two ends of a method. Only where its declaration begins is the depth
looked at, and there it is one. Behind the parameters nothing but the body holds braces, and the
body closes what it opens; of the leading lines only annotations hold any. So the depth is one at
both ends exactly if the leading lines, and the declaration up to the end of its parameters, each
close as many braces as they open.
-/

set_option autoImplicit false

namespace MemberOrder

/-! ### Stretches without braces -/

namespace Source

theorem braceWeight_of_char_ne {g : Glyph} (hopen : g.char ≠ '\x7b') (hclose : g.char ≠ '\x7d') :
    g.braceWeight = 0 := by
  simp [Glyph.braceWeight, Glyph.isCodeChar, hopen, hclose]

theorem braceWeight_of_not_isSolid {g : Glyph} (h : g.isSolid = false) : g.braceWeight = 0 := by
  obtain ⟨c, isCode⟩ := g
  cases isCode with
  | false => simp [Glyph.braceWeight, Glyph.isCodeChar]
  | true =>
    have hblank : Text.isBlank c = true := by simpa [Glyph.isSolid, Glyph.isBlank] using h
    refine braceWeight_of_char_ne ?_ ?_
    · rintro rfl
      exact absurd hblank (by decide)
    · rintro rfl
      exact absurd hblank (by decide)

theorem braceBalance_eq_zero {stretch : List Glyph} (h : ∀ g ∈ stretch, g.braceWeight = 0) :
    braceBalance stretch = 0 := by
  induction stretch with
  | nil => rfl
  | cons g rest ih =>
    obtain ⟨hg, hrest⟩ := List.forall_mem_cons.mp h
    rw [braceBalance_cons, hg, ih hrest, Int.add_zero]

theorem braceDepth_eq_add (src : Source) {start middle stop : Nat} (h : start ≤ middle)
    (h' : middle ≤ stop) : src.braceDepth start stop =
      src.braceDepth start middle + braceBalance (src.glyphs.extract middle stop) := by
  rw [braceDepth, braceDepth, ← extract_append_extract _ h h', braceBalance_append]

/-! ### Leading lines -/

theorem linesOf_flatten_of_cons {stretch line : List Glyph} {others : List (List Glyph)}
    (h : linesOf stretch = line :: others) : linesOf others.flatten = others := by
  fun_induction linesOf stretch generalizing line with
  | case1 => cases h
  | case2 g rest hfeed ih =>
    obtain ⟨-, rfl⟩ := List.cons_eq_cons.mp h
    rw [flatten_linesOf]
  | case3 g rest hfeed hnone ih =>
    obtain ⟨-, rfl⟩ := List.cons_eq_cons.mp h
    rfl
  | case4 g rest hfeed first others' hlines ih =>
    obtain ⟨-, rfl⟩ := List.cons_eq_cons.mp h
    exact ih hlines

theorem linesOf_flatten_drop (stretch : List Glyph) (k : Nat) :
    linesOf ((linesOf stretch).drop k).flatten = (linesOf stretch).drop k := by
  induction k generalizing stretch with
  | zero => rw [List.drop_zero, flatten_linesOf]
  | succ k ih =>
    cases hlines : linesOf stretch with
    | nil => rfl
    | cons line others =>
      rw [List.drop_succ_cons, ← linesOf_flatten_of_cons hlines]
      exact ih others.flatten

/-- The lines of leading lines are such. -/
theorem isLeadingLine_of_mem_leadingIn {wholeLine : Bool} {stretch line : List Glyph}
    (h : line ∈ linesOf (leadingIn wholeLine stretch)) : isLeadingLine line = true := by
  have hsuffix := List.rtakeWhile_suffix isLeadingLine
    ((linesOf stretch).drop (if wholeLine then 0 else 1))
  rw [leadingIn_eq, List.suffix_iff_eq_drop.mp hsuffix, List.drop_drop, linesOf_flatten_drop,
    ← List.drop_drop, ← List.suffix_iff_eq_drop.mp hsuffix] at h
  exact List.mem_rtakeWhile_imp h

/-- Of the leading lines only annotations hold braces. -/
theorem isAnnotation_of_braceBalance_ne_zero {line : List Glyph} (h : isLeadingLine line = true)
    (hbalance : braceBalance line ≠ 0) :
    (line.dropWhile Glyph.isBlank).head?.any (·.char == '@') = true := by
  rcases Bool.or_eq_true_iff.mp h with hmute | hannotation
  · refine absurd (braceBalance_eq_zero fun g hg ↦ braceWeight_of_not_isSolid ?_) hbalance
    simpa using List.all_eq_true.mp hmute g hg
  · exact hannotation

end Source

namespace Terminator

/-- No brace stands between the parameters of a declaration and its end. -/
theorem ne_brace_of_find? {t : Text} {offset : Nat} {terminator : Terminator}
    (h : find? t = some (offset, terminator)) :
    ∀ c ∈ t.take offset, c ≠ '\x7b' ∧ c ≠ '\x7d' := by
  have hblank {c : Char} (hc : Text.isBlank c = true) : c ≠ '\x7b' ∧ c ≠ '\x7d' := by
    constructor
    · rintro rfl
      exact absurd hc (by decide)
    · rintro rfl
      exact absurd hc (by decide)
  have hgap : ∀ c ∈ t.take (t.takeWhile Text.isBlank).length, c ≠ '\x7b' ∧ c ≠ '\x7d' := by
    intro c hc
    rw [← List.prefix_iff_eq_take.mp (List.takeWhile_prefix _)] at hc
    exact hblank (List.mem_takeWhile_imp hc)
  unfold find? at h
  simp only at h
  split at h
  · cases h
    exact hgap
  · split_ifs at h with hthrows hclause
    obtain ⟨found, -, hpair⟩ := Option.map_eq_some_iff.mp h
    cases hpair
    intro c hc
    rw [List.take_add, List.take_add, List.mem_append, List.mem_append] at hc
    rcases hc with (hc | hc) | hc
    · exact hgap c hc
    · have hword := List.prefix_iff_eq_take.mp (List.isPrefixOf_iff_prefix.mp hthrows)
      have hletters : "throws".toList.all (fun c ↦ c != '\x7b' && c != '\x7d') = true := by decide
      rw [show 6 = "throws".toList.length from rfl, ← hword] at hc
      simpa using List.all_eq_true.mp hletters c hc
    · rw [← List.drop_drop, ← List.prefix_iff_eq_take.mp (List.takeWhile_prefix _)] at hc
      have hpart := List.mem_takeWhile_imp hc
      constructor
      · rintro rfl
        exact absurd hpart (by decide)
      · rintro rfl
        exact absurd hpart (by decide)

end Terminator

namespace ClassBody

variable {src : Source} {body : ClassBody} {skipped : List Region}

open Source

/-- Between the parameters of a declaration and its end stands at most a clause without braces. -/
theorem braceBalance_of_declarationEnd? {head : MethodHead} {ending : DeclarationEnd}
    (h : body.declarationEnd? src head = some ending) :
    braceBalance (src.glyphs.extract (ending.parenthesis + 1) ending.position) = 0 := by
  obtain ⟨-, -, offset, hfind, hposition, -⟩ := declarationEnd?_eq_some h
  have hlt := Terminator.offset_lt_of_find? hfind
  have hbegins : src.text.extract (ending.parenthesis + 1) ending.position =
      (src.text.extract (ending.parenthesis + 1) body.closeBrace).take offset := by
    rw [List.extract_eq_take_drop, List.extract_eq_take_drop, List.take_take]
    rw [List.extract_eq_take_drop, List.length_take, List.length_drop] at hlt
    congr 1
    omega
  refine braceBalance_eq_zero fun g hg ↦ ?_
  have hchar : g.char ∈ src.text.extract (ending.parenthesis + 1) ending.position := by
    rw [← src.map_char_extract]
    exact List.mem_map_of_mem hg
  rw [hbegins] at hchar
  obtain ⟨hopen, hclose⟩ := Terminator.ne_brace_of_find? hfind _ hchar
  exact braceWeight_of_char_ne hopen hclose

/-- The body of a method closes the braces it opens, and a semicolon opens none. -/
theorem braceBalance_of_methodEnd? {head : MethodHead} {ending : DeclarationEnd} {inner : Nat}
    (hending : body.declarationEnd? src head = some ending)
    (h : body.methodEnd? src skipped ending = some inner) :
    braceBalance (src.glyphs.extract ending.position inner) = 0 := by
  unfold methodEnd? at h
  split at h
  · rename_i hterminator
    cases h
    rw [extract_eq_cons (getElem?_of_declarationEnd? hending) (Nat.lt_succ_self _), hterminator]
    simp [Glyph.braceWeight, Glyph.isCodeChar, Glyph.code, Terminator.char]
  · obtain ⟨close, hbrace, rfl⟩ := Option.map_eq_some_iff.mp h
    obtain ⟨hbrace, -⟩ := Option.filter_eq_some_iff.mp hbrace
    have hbalanced := balanced_of_closeOf? (innerClose?_eq_some hbrace).1
    simpa using braceBalance_of_depthAfter hbalanced

/-- A comment that is taken in holds no braces that are code. -/
theorem braceBalance_afterTrailingComment {stop : Nat} (h : stop ≤ body.closeBrace) :
    braceBalance (src.glyphs.extract stop (body.afterTrailingComment src stop)) = 0 :=
  braceBalance_eq_zero fun g hg ↦ braceWeight_of_not_isSolid (mute_of_mem_trailing src h g hg).2

/-- From its parameters to its end a method closes as many braces as it opens. -/
theorem braceBalance_of_extent? {head : MethodHead} {ending : DeclarationEnd} {inner : Nat}
    (h : body.extent? src skipped head = some (ending, inner)) :
    braceBalance (src.glyphs.extract (ending.parenthesis + 1)
      (body.afterTrailingComment src inner)) = 0 := by
  obtain ⟨-, hposition, hinner, hle⟩ := extent?_bounds h
  obtain ⟨hbehind, -⟩ := afterTrailingComment_bounds src hle
  obtain ⟨-, hending, -, hend⟩ := extent?_eq_some h
  rw [← extract_append_extract _ (show ending.parenthesis + 1 ≤ inner by omega) hbehind,
    ← extract_append_extract _ (show ending.parenthesis + 1 ≤ ending.position by omega) hinner.le,
    braceBalance_append, braceBalance_append, braceBalance_of_declarationEnd? hending,
    braceBalance_of_methodEnd? hending hend, braceBalance_afterTrailingComment hle]
  rfl

end ClassBody

namespace Reading

open Source

/-- The lines before a method that belong to it are leading lines. -/
theorem isLeadingLine_of_mem_methods {src : Source} {layout : Layout}
    (h : ofSource src = .complete layout) {m : Method} (hm : m ∈ layout.methods)
    {line : List Glyph} (hline : line ∈ linesOf (src.glyphs.extract m.leadingStart m.start)) :
    isLeadingLine line = true := by
  obtain ⟨-, hclose, -⟩ := ofSource_eq_complete h
  have hplaced := (tiles_of_complete h).placed_of_mem hm
  have hlength : m.start ≤ src.text.length :=
    hplaced.start_lt.le.trans (hplaced.stop_le.trans (closeOf?_bounds hclose).2.le)
  obtain ⟨front, back, hsplit⟩ := List.append_of_mem hm
  obtain ⟨hfloor, hleading⟩ := leading_eq_leadingLines h hsplit
  rw [Method.leadingStart, hleading, src.extract_leadingLines hfloor hlength] at hline
  exact isLeadingLine_of_mem_leadingIn hline

/-- The declaration of a method begins at depth one. The method with its leading lines begins at
depth one as well exactly if these, of which only annotations hold braces, close as many braces as
they open, and it ends there exactly if its declaration does so up to the end of its parameters. If
both are the case, the method closes as many braces as it opens. -/
theorem braceDepth_block_iff {text : Text} {layout : Layout} (h : ofText text = .complete layout)
    {m : Method} (hm : m ∈ layout.methods) :
    (Source.ofText text).braceDepth layout.body.openBrace m.start = 1 ∧
      ((Source.ofText text).braceDepth layout.body.openBrace m.leadingStart = 1 ↔
        braceBalance ((Source.ofText text).glyphs.extract m.leadingStart m.start) = 0) ∧
      (∀ line ∈ linesOf ((Source.ofText text).glyphs.extract m.leadingStart m.start),
        braceBalance line ≠ 0 → (line.dropWhile Glyph.isBlank).head?.any (·.char == '@') = true) ∧
      (∃ opening closing, m.start ≤ opening ∧ closing < m.stop ∧
        (Source.ofText text).closingParenthesis? opening = some closing ∧
        m.signature <:+ text.take (closing + 1) ∧
        ((Source.ofText text).braceDepth layout.body.openBrace m.stop = 1 ↔
          braceBalance ((Source.ofText text).glyphs.extract m.start (closing + 1)) = 0)) ∧
      ((Source.ofText text).braceDepth layout.body.openBrace m.leadingStart = 1 →
        (Source.ofText text).braceDepth layout.body.openBrace m.stop = 1 →
          braceBalance ((Source.ofText text).glyphs.extract m.leadingStart m.stop) = 0) := by
  set src := Source.ofText text
  have hplaced := (tiles_of_complete h).placed_of_mem hm
  have hopen := hplaced.openBrace_lt.le
  have hleading := hplaced.leadingStart_le
  have hstop := hplaced.start_lt.le
  obtain ⟨head, hhead, previous, place, ending, inner, -, hdeclares, rfl⟩ :=
    exists_head_of_mem_methods h hm
  obtain ⟨hbehind, hposition, hinner, hle⟩ := ClassBody.extent?_bounds hdeclares.extent_eq
  obtain ⟨hcomment, -⟩ := ClassBody.afterTrailingComment_bounds src hle
  obtain ⟨-, hending, -, -⟩ := ClassBody.extent?_eq_some hdeclares.extent_eq
  obtain ⟨-, -, -, hparenthesis⟩ := MethodHead.mem_allBetween hhead
  set m := layout.body.declared src (layout.body.skippedRegions src) previous place head ending inner
  have hstart : src.braceDepth layout.body.openBrace m.start = 1 := hdeclares.depth_eq
  have hfromLeading := src.braceDepth_eq_add hopen hleading
  have htoStop := src.braceDepth_eq_add (hopen.trans hleading) hstop
  have hthrough := src.braceDepth_eq_add hopen (hleading.trans hstop)
  have hend : ending.parenthesis < m.stop := by
    change _ < layout.body.afterTrailingComment src inner
    omega
  have hparameters : braceBalance (src.glyphs.extract m.start m.stop) =
      braceBalance (src.glyphs.extract m.start (ending.parenthesis + 1)) := by
    have hrest : braceBalance (src.glyphs.extract (ending.parenthesis + 1) m.stop) = 0 :=
      ClassBody.braceBalance_of_extent? hdeclares.extent_eq
    have hcut : m.start ≤ ending.parenthesis + 1 := hparenthesis.trans (by omega)
    rw [← extract_append_extract _ hcut hend, braceBalance_append, hrest, Int.add_zero]
  refine ⟨hstart, ?_, ?_, ⟨head.parenthesis, ending.parenthesis, hparenthesis, hend,
    (ClassBody.declarationEnd?_eq_some hending).1, ?_, ?_⟩, ?_⟩
  · omega
  · intro line hline hbalance
    exact isAnnotation_of_braceBalance_ne_zero (isLeadingLine_of_mem_methods h hm hline) hbalance
  · change text.extract head.nameStart (ending.parenthesis + 1) <:+ _
    rw [List.extract_eq_take_drop, ← List.drop_take]
    exact List.drop_suffix _ _
  · omega
  · intro hbefore hafter
    omega

/-- An annotation with braces before a method, and another in its parameters. -/
def annotatedMethodSource : Text :=
  ("class C \x7b\n  @A(\x7b1, 2\x7d)\n  void f(@B(\x7b3\x7d) int x) throws E \x7b\n  \x7d // f\n" ++
    "\x7d\n").toList

/-- Both close the braces they open, and so the method begins and ends at depth one. -/
theorem annotatedMethodSource_level :
    ∃ layout, ofText annotatedMethodSource = .complete layout ∧ ∃ m ∈ layout.methods,
      m.leading = "  @A(\x7b1, 2\x7d)\n".toList ∧
      (Source.ofText annotatedMethodSource).braceDepth layout.body.openBrace m.leadingStart = 1 ∧
      (Source.ofText annotatedMethodSource).braceDepth layout.body.openBrace m.stop = 1 ∧
      braceBalance
        ((Source.ofText annotatedMethodSource).glyphs.extract m.leadingStart m.stop) = 0 := by
  have hsome : (ofText annotatedMethodSource).layout?.any fun layout ↦ layout.methods.any fun m ↦
      decide (m.leading = "  @A(\x7b1, 2\x7d)\n".toList ∧
        (Source.ofText annotatedMethodSource).braceDepth layout.body.openBrace m.stop = 1 ∧
        braceBalance ((Source.ofText annotatedMethodSource).glyphs.extract m.leadingStart
          m.start) = 0) := by
    decide +kernel
  obtain ⟨layout, h, hmethods⟩ := exists_complete_of_any hsome
  obtain ⟨m, hm, hfound⟩ := List.any_eq_true.mp hmethods
  obtain ⟨hleading, hstop, hbalance⟩ := of_decide_eq_true hfound
  obtain ⟨-, hdepth, -, -, hthrough⟩ := braceDepth_block_iff h hm
  exact ⟨layout, h, m, hm, hleading, hdepth.mpr hbalance, hstop,
    hthrough (hdepth.mpr hbalance) hstop⟩

/-- An annotation whose arguments go over several lines, in braces. -/
def annotationAcrossLinesSource : Text :=
  ("class C \x7b\n  @A(\n    value = \x7b\n    @B(1),\n    @B(2) \x7d)\n" ++
    "  void f() \x7b\x7d\n  void a() \x7b\x7d\n\x7d\n").toList

/-- The method takes the last of these lines with it, from inside of the braces on. -/
theorem annotationAcrossLinesSource_cut :
    ∃ layout, ofText annotationAcrossLinesSource = .complete layout ∧ ∃ m ∈ layout.methods,
      m.leading = "    @B(1),\n    @B(2) \x7d)\n".toList ∧
      (Source.ofText annotationAcrossLinesSource).braceDepth layout.body.openBrace
        m.leadingStart = 2 := by
  have hsome : (ofText annotationAcrossLinesSource).layout?.any fun layout ↦
      layout.methods.any fun m ↦ decide (m.leading = "    @B(1),\n    @B(2) \x7d)\n".toList ∧
        (Source.ofText annotationAcrossLinesSource).braceDepth layout.body.openBrace
          m.leadingStart = 2) := by
    decide +kernel
  obtain ⟨layout, h, hmethods⟩ := exists_complete_of_any hsome
  obtain ⟨m, hm, hfound⟩ := List.any_eq_true.mp hmethods
  exact ⟨layout, h, m, hm, of_decide_eq_true hfound⟩

end Reading

end MemberOrder
