import MemberOrder.Proofs.Declaration.Discovery
import MemberOrder.Proofs.Layout.Cuts
import MemberOrder.Proofs.Source.Matching

/-!
How a method is written. The name and the parenthesis of a head stand where it says. From there on
the offsets of a method fit together: its signature ends where the parenthesis closes, its
declaration at the brace of its body or behind a semicolon, its body at the brace that closes it,
and what still belongs to it is a comment on the same line.
-/

set_option autoImplicit false

namespace MemberOrder

/-! ### Heads -/

namespace Text

/-- The name stands in the text from `nameStart` on, and between it and `opening` there are only
characters that may fill the gap. -/
structure NamedAt (t : Text) (fills : Char → Bool) (name : Text) (nameStart opening : Nat) :
    Prop where
  isName : IsName name
  name_eq : t.extract nameStart (nameStart + name.length) = name
  name_le : nameStart + name.length ≤ opening
  gap : ∀ c ∈ t.extract (nameStart + name.length) opening, fills c = true

theorem NamedAt.of_drop {t name gap rest : Text} {fills : Char → Bool} {nameStart : Nat}
    (h : t.drop nameStart = name ++ (gap ++ rest)) (hname : IsName name)
    (hgap : ∀ c ∈ gap, fills c = true) :
    t.NamedAt fills name nameStart (nameStart + name.length + gap.length) := by
  refine ⟨hname, ?_, Nat.le_add_right _ _, fun c hc ↦ ?_⟩
  · rw [List.extract_eq_take_drop, Nat.add_sub_cancel_left, h, List.take_left]
  · rw [List.extract_eq_take_drop, Nat.add_sub_cancel_left, ← List.drop_drop, h, List.drop_left,
      List.take_left] at hc
    exact hgap c hc

end Text

namespace MethodHead

theorem nameBeforeParenthesis?_eq_some {t name fromParenthesis : Text}
    (h : nameBeforeParenthesis? t = some (name, fromParenthesis)) :
    Text.IsName name ∧ ∃ gap rest, t = name ++ (gap ++ '(' :: rest) ∧
      fromParenthesis = '(' :: rest ∧ ∀ c ∈ gap, Text.isIndent c = true := by
  obtain ⟨word, hword, hrest⟩ := Option.bind_eq_some_iff.mp h
  split at hrest
  · rename_i rest hdrop
    cases hrest
    obtain ⟨others, rfl, hname, -⟩ := Text.identifier?_eq_some_iff.mp hword
    rw [List.drop_left] at hdrop
    refine ⟨hname, others.takeWhile Text.isIndent, rest, ?_, rfl, ?_⟩
    · rw [← hdrop, List.takeWhile_append_dropWhile]
    · intro c hc
      exact List.mem_takeWhile_imp hc
  · cases hrest

theorem namedAt_of_mem_allBetween {t : Text} {start stop : Nat} {head : MethodHead}
    (h : head ∈ allBetween t start stop) :
    t.NamedAt Text.isIndent head.name head.nameStart head.parenthesis := by
  obtain ⟨line, fromName, fromParenthesis, ⟨behind, hbehind⟩, -, hfound, hstart, hopening⟩ :=
    exists_line_of_mem_allBetween h
  obtain ⟨hsuffix, hname⟩ := findName?_eq_some hfound
  obtain ⟨hisName, gap, rest, rfl, rfl, hgap⟩ := nameBeforeParenthesis?_eq_some hname
  obtain ⟨before, rfl⟩ :=
    (hsuffix.trans (skipMarks_suffix _)).trans (List.dropWhile_suffix Text.isIndent)
  -- What stands before the name on its line is what the line has more than what starts with it.
  have hdrop : t.drop head.nameStart = head.name ++ (gap ++ ('(' :: rest ++ behind)) := by
    rw [hstart, ← List.drop_drop, ← hbehind, List.length_append, Nat.add_sub_cancel,
      List.append_assoc, List.drop_left]
    simp
  have hparenthesis : head.parenthesis = head.nameStart + head.name.length + gap.length := by
    rw [hopening, hstart]
    simp only [List.length_append]
    omega
  rw [hparenthesis]
  exact Text.NamedAt.of_drop hdrop hisName hgap

end MethodHead

/-! ### Records -/

namespace Method

/-- The signature of the method stands in the source. Its name begins at `nameStart`; behind it and
blanks stands a parenthesis that is code, and the signature goes on to where this one closes. -/
structure SignedAt (src : Source) (m : Method) (nameStart opening closing : Nat) : Prop where
  named : src.text.NamedAt Text.isIndent m.name nameStart opening
  closes : src.Closes '(' ')' opening closing
  signature_eq : m.signature = src.text.extract nameStart (closing + 1)

/-- The body of the method is what the source holds between the two positions: a brace that is code
and all up to the one that closes it, or nothing, behind a semicolon that is code. -/
structure BodyAt (src : Source) (m : Method) (bodyStart bodyStop : Nat) : Prop where
  body_eq : m.body = src.text.extract bodyStart bodyStop
  braces : m.body ≠ [] → m.isAbstract = false ∧
    ∃ close, bodyStop = close + 1 ∧ src.Closes '\x7b' '\x7d' bodyStart close
  semicolon : m.body = [] → bodyStop = bodyStart ∧
    ∃ last, bodyStart = last + 1 ∧ src.glyphs[last]? = some (Glyph.code ';')

end Method

namespace ClassBody

variable {src : Source} {body : ClassBody} {skipped : List Region} {head : MethodHead}
  {ending : DeclarationEnd} {inner : Nat}

open Method

theorem signedAt_declared (previous place : Nat) {first stop : Nat}
    (hhead : head ∈ MethodHead.allBetween src.text first stop)
    (hending : body.declarationEnd? src head = some ending) :
    (body.declared src skipped previous place head ending inner).SignedAt src head.nameStart
      head.parenthesis ending.parenthesis := by
  obtain ⟨hclose, -⟩ := declarationEnd?_eq_some hending
  exact ⟨MethodHead.namedAt_of_mem_allBetween hhead,
    (Source.closeOf?_eq_some_iff (by decide)).mp hclose, rfl⟩

/-- A declaration goes up to the brace of its body, or takes in the semicolon that ends it. -/
theorem exists_bodyAt_declared (previous place : Nat)
    (hextent : body.extent? src skipped head = some (ending, inner)) :
    ∃ bodyStart, ending.position ≤ bodyStart ∧ bodyStart ≤ inner ∧
      (body.declared src skipped previous place head ending inner).BodyAt src bodyStart inner := by
  obtain ⟨-, hending, -, hinner⟩ := extent?_eq_some hextent
  have hglyph := getElem?_of_declarationEnd? hending
  obtain ⟨-, -, hlt, -⟩ := extent?_bounds hextent
  unfold methodEnd? at hinner
  split at hinner
  · rename_i hterminator
    cases hinner
    refine ⟨ending.position + 1, Nat.le_succ _, Nat.le_refl _, ?_, ?_, ?_⟩
    · simp [declared, hterminator]
    · intro hbody
      simp [declared, hterminator] at hbody
    · intro _
      refine ⟨rfl, ending.position, rfl, ?_⟩
      rw [hglyph, hterminator]
      rfl
  · rename_i hterminator
    obtain ⟨close, hbrace, rfl⟩ := Option.map_eq_some_iff.mp hinner
    obtain ⟨hbrace, -⟩ := Option.filter_eq_some_iff.mp hbrace
    have hcloses : src.Closes '\x7b' '\x7d' ending.position close :=
      (Source.closeOf?_eq_some_iff (by decide)).mp (innerClose?_eq_some hbrace).1
    have hbody : (body.declared src skipped previous place head ending (close + 1)).body =
        src.text.extract ending.position (close + 1) := by
      simp [declared, hterminator]
    have hne : (body.declared src skipped previous place head ending (close + 1)).body ≠ [] := by
      have hinside : close + 1 ≤ src.text.length := by
        rw [← src.length_glyphs]
        exact hcloses.inside
      rw [hbody, ← List.length_pos_iff, length_extract _ hlt.le hinside]
      omega
    refine ⟨ending.position, Nat.le_refl _, hlt.le, hbody, ?_, ?_⟩
    · intro _
      exact ⟨by simpa [Method.isAbstract] using hne, close, rfl, hcloses⟩
    · intro hnone
      exact absurd hnone hne

end ClassBody

namespace Reading

open Source

/-- A method begins in no region that is passed over. -/
theorem not_contains_start {src : Source} {layout : Layout} (h : ofSource src = .complete layout)
    {m : Method} (hm : m ∈ layout.methods) :
    ∀ region ∈ layout.skipped, region.contains m.start = false := by
  rw [skipped_of_complete h]
  obtain ⟨head, -, previous, place, ending, inner, -, hdeclares, rfl⟩ :=
    exists_head_of_mem_methods h hm
  intro region hregion
  exact Bool.eq_false_iff.mpr (List.find?_eq_none.mp hdeclares.outside region hregion)

/-- The text of a method is its declaration, its body and what trails it. The declaration begins a
line, on which its name stands up to the parenthesis, and holds the signature. The body goes from a
brace to the one that closes it; where there is none the declaration ends with a semicolon. What
trails the method has no line feed and no code but white space, and the reader is in code where it
begins. The method ends inside the body of its class, and begins in no region that is passed over. -/
theorem text_eq_declaration_append {text : Text} {layout : Layout}
    (h : ofText text = .complete layout) {m : Method} (hm : m ∈ layout.methods) :
    ∃ nameStart opening closing bodyStart bodyStop,
      m.text = text.extract m.start bodyStart ++ m.body ++ text.extract bodyStop m.stop ∧
      text[m.start - 1]? = some '\n' ∧ (∀ c ∈ text.extract m.start opening, c ≠ '\n') ∧
      m.start ≤ nameStart ∧ m.SignedAt (Source.ofText text) nameStart opening closing ∧
      closing < bodyStart ∧ m.BodyAt (Source.ofText text) bodyStart bodyStop ∧
      bodyStart ≤ bodyStop ∧ bodyStop ≤ m.stop ∧
      (∀ g ∈ (Source.ofText text).glyphs.extract bodyStop m.stop,
        g.char ≠ '\n' ∧ g.isSolid = false) ∧
      m.stop ≤ layout.body.closeBrace ∧ (∀ region ∈ layout.skipped, region.contains m.start = false) ∧
      modeAfter .code (text.take bodyStop) = .code := by
  set src := Source.ofText text
  have hplaced := (tiles_of_complete h).placed_of_mem hm
  obtain ⟨head, hhead, previous, place, ending, inner, -, hdeclares, rfl⟩ :=
    exists_head_of_mem_methods h hm
  set m := layout.body.declared src (layout.body.skippedRegions src) previous place head ending inner
  obtain ⟨hopen, hstop, -, -⟩ := MethodHead.mem_allBetween hhead
  obtain ⟨hbehind, hposition, hinner, hle⟩ := ClassBody.extent?_bounds hdeclares.extent_eq
  have hcomment : inner ≤ m.stop := (ClassBody.afterTrailingComment_bounds src hle).1
  obtain ⟨-, hending, -, -⟩ := ClassBody.extent?_eq_some hdeclares.extent_eq
  obtain ⟨bodyStart, hbodyStart, hbodyStop, hbody⟩ :=
    ClassBody.exists_bodyAt_declared previous place hdeclares.extent_eq
  have hname : head.start ≤ head.nameStart := by
    obtain ⟨position, -, -, -, hat⟩ := Text.exists_of_mem_findBetween hhead
    obtain ⟨rfl, hle, -⟩ := MethodHead.at?_bounds hat
    exact hle
  have hsigned : m.SignedAt src head.nameStart head.parenthesis ending.parenthesis :=
    ClassBody.signedAt_declared previous place hhead hending
  have hlength := hsigned.named.name_le
  refine ⟨head.nameStart, head.parenthesis, ending.parenthesis, bodyStart, inner, ?_,
    feed_before_start h hm, MethodHead.ne_feed_of_mem_allBetween hhead, hname, hsigned, by omega,
    hbody, hbodyStop, hcomment, ?_, hplaced.stop_le, not_contains_start h hm, ?_⟩
  · have hstart : m.start ≤ bodyStart := by
      change head.start ≤ bodyStart
      omega
    change _ = src.text.extract m.start bodyStart ++ m.body ++ src.text.extract inner m.stop
    rw [hbody.body_eq, extract_append_extract _ hstart hbodyStop,
      extract_append_extract _ (hstart.trans hbodyStop) hcomment, hplaced.text_eq]
  · exact ClassBody.mute_of_mem_trailing src hle
  · obtain ⟨i, c, rfl, hglyph, hc⟩ := ClassBody.exists_glyph_of_extent? hdeclares.extent_eq
    refine src.modeAfter_take_succ hglyph ?_
    rcases hc with rfl | rfl <;> decide

/-- A method with parentheses in a literal and in a comment between its own, its `throws` clause on
a line of its own, a brace in a literal of its body, and a comment behind it. -/
def commentedSignatureSource : Text :=
  ("class C \x7b\n  @A(1) void f (@B(\")\") int x /* ) */)\n" ++
    "    throws E, F \x7b g(\"\x7d\"); \x7d // f\n\x7d\n").toList

/-- Its signature goes up to the third parenthesis that closes, its body up to the second brace that
does, and the comment behind it trails it. -/
theorem commentedSignatureSource_written :
    ∃ layout, ofText commentedSignatureSource = .complete layout ∧ ∃ m ∈ layout.methods,
      m.signature = "f (@B(\")\") int x /* ) */)".toList ∧
      m.body = "\x7b g(\"\x7d\"); \x7d".toList ∧
      ∃ bodyStart bodyStop, m.text = commentedSignatureSource.extract m.start bodyStart ++ m.body ++
          commentedSignatureSource.extract bodyStop m.stop ∧
        m.BodyAt (Source.ofText commentedSignatureSource) bodyStart bodyStop ∧
        modeAfter .code (commentedSignatureSource.take bodyStop) = .code := by
  have hsome : (ofText commentedSignatureSource).layout?.any fun layout ↦ layout.methods.any fun m ↦
      m.signature == "f (@B(\")\") int x /* ) */)".toList &&
        m.body == "\x7b g(\"\x7d\"); \x7d".toList := by
    decide +kernel
  obtain ⟨layout, h, hmethods⟩ := exists_complete_of_any hsome
  obtain ⟨m, hm, hfound⟩ := List.any_eq_true.mp hmethods
  rw [Bool.and_eq_true, beq_iff_eq, beq_iff_eq] at hfound
  obtain ⟨_, _, _, bodyStart, bodyStop, htext, -, -, -, -, -, hbody, -, -, -, -, -, hcode⟩ :=
    text_eq_declaration_append h hm
  exact ⟨layout, h, m, hm, hfound.1, hfound.2, bodyStart, bodyStop, htext, hbody, hcode⟩

end Reading

end MemberOrder
