import MemberOrder.Proofs.Layout.Record
import MemberOrder.Proofs.Layout.RegionWalk
import MemberOrder.Proofs.Splice.Regions

/-!
Methods and the regions that are passed over. A region begins a line or the body of the class, and no
line begins behind the end of a method while its trailing comment goes on; a region ends with a
brace. So a method and a region are apart, or the region lies inside the method, unless the region
holds what ends the method. A body is not taken where a region holds its last brace. A semicolon is
taken also there: then the region begins inside the method and ends behind it.
-/

set_option autoImplicit false

namespace MemberOrder

namespace Region

/-- No position is in both. -/
def Apart (r s : Region) : Prop := r.stop ≤ s.start ∨ s.stop ≤ r.start

/-- Every position of the first is in the second. -/
def Inside (r s : Region) : Prop := s.start ≤ r.start ∧ r.stop ≤ s.stop

instance (r s : Region) : Decidable (r.Apart s) := inferInstanceAs (Decidable (_ ∨ _))

instance (r s : Region) : Decidable (r.Inside s) := inferInstanceAs (Decidable (_ ∧ _))

/-- A stretch that a region does not hold the beginning of, and whose last part the region does not
begin in, is entangled with the region exactly if that holds the position before the last part. -/
theorem apart_or_inside_iff_contains {r s : Region} {last : Nat} (hle : s.start ≤ last)
    (hlt : last < s.stop) (hstart : r.contains s.start = false)
    (hbegin : last < r.start → s.stop ≤ r.start) (hend : r.contains last = true → s.stop < r.stop) :
    (r.Apart s ∨ r.Inside s ↔ r.contains last = false) ∧
      (r.contains last = true → s.start < r.start ∧ r.start < s.stop ∧ s.stop < r.stop) := by
  rw [contains_eq_false] at hstart
  have hcontains : r.contains last = true ↔ r.start ≤ last ∧ last < r.stop := by
    simp [contains]
  rw [contains_eq_false, hcontains]
  rw [hcontains] at hend
  unfold Apart Inside
  constructor
  · omega
  · omega

end Region

/-- The stretch of the source that the text of the method is. -/
def Method.span (m : Method) : Region := ⟨m.start, m.stop⟩

namespace ClassBody

variable {src : Source} {body : ClassBody}

/-! ### Where regions begin -/

/-- The line that a position is on begins behind a line feed, if not with the body. -/
theorem feed_before_lineStart {i : Nat} (hi : i ≤ src.text.length) :
    body.lineStart src i = body.openBrace + 1 ∨ src.text[body.lineStart src i - 1]? = some '\n' := by
  set before := (src.text.take i).reverse with hbefore
  set k := (before.takeWhile (· != '\n')).length with hk
  have hlength : before.length = i := by
    rw [hbefore, List.length_reverse, List.length_take, Nat.min_eq_left hi]
  by_cases hfirst : i - k ≤ body.openBrace + 1
  · left
    exact Nat.max_eq_right hfirst
  · right
    have hline : body.lineStart src i = i - k := Nat.max_eq_left (Nat.le_of_not_ge hfirst)
    have hfeed : before[k]? = some '\n' := by
      have hstop := List.head?_dropWhile_not (· != '\n') before
      rw [← drop_length_takeWhile, List.head?_drop, ← hk,
        List.getElem?_eq_getElem (by omega)] at hstop
      rw [List.getElem?_eq_getElem (by omega)]
      simpa using hstop
    rw [hbefore, List.getElem?_reverse (by rw [← List.length_reverse, ← hbefore]; omega),
      ← List.length_reverse, ← hbefore, hlength, List.getElem?_take_of_lt (by omega)] at hfeed
    rw [hline, ← hfeed]
    congr 1
    omega

/-- A region that is passed over begins in the body, with it or behind a line feed. -/
theorem feed_before_of_mem_skippedRegions (hclose : body.closeBrace ≤ src.text.length)
    {region : Region} (h : region ∈ body.skippedRegions src) :
    body.openBrace < region.start ∧
      (region.start = body.openBrace + 1 ∨ src.text[region.start - 1]? = some '\n') := by
  have hinitializer {taken : List Region} {atBoundary : Bool} {resume : Nat}
      {recognise : Nat → Text → Option InitializerHead}
      (hstart : ∀ p t head, recognise p t = some head → head.start = p)
      (h : region ∈ body.initializerRegions src taken atBoundary resume
        (src.text.findBetween Text.beginsLine recognise (body.openBrace + 1) body.closeBrace)) :
      body.openBrace < region.start ∧
        (region.start = body.openBrace + 1 ∨ src.text[region.start - 1]? = some '\n') := by
    rw [initializerRegions_eq_sweep] at h
    obtain ⟨_, _, head, hhead, hfound⟩ := exists_of_mem_sweep h
    obtain ⟨close, -, rfl⟩ := mem_decideInitializer hfound
    obtain ⟨position, hposition, hlt, hbegins, hat⟩ := Text.exists_of_mem_findBetween hhead
    have hbegin := hstart _ _ _ hat
    subst hbegin
    exact ⟨hposition, Or.inr (Text.feed_of_beginsLine hbegins (Nat.zero_lt_of_lt hposition)
      (hlt.le.trans hclose))⟩
  unfold skippedRegions at h
  simp only [List.mem_mergeSort, List.mem_append] at h
  rcases h with (h | h) | h
  · rw [typeRegions_eq_sweep] at h
    obtain ⟨_, _, header, hheader, hfound⟩ := exists_of_mem_sweep h
    obtain ⟨close, -, rfl⟩ := mem_decideType hfound
    obtain ⟨-, hlt, hle⟩ := TypeHeader.bounds_of_mem_allBetween hheader
    exact ⟨Nat.le_max_right _ _, feed_before_lineStart (by omega)⟩
  · exact hinitializer (fun p t head hat ↦ (InitializerHead.static?_bounds hat).1) h
  · exact hinitializer (fun p t head hat ↦ (InitializerHead.instance?_bounds hat).1) h

/-! ### What ends a method -/

variable {skipped : List Region} {head : MethodHead} {ending : DeclarationEnd} {inner : Nat}

/-- No region holds the brace that ends a body. -/
theorem outside_of_methodEnd? (hterminator : ending.terminator = .body)
    (h : body.methodEnd? src skipped ending = some (inner + 1)) :
    ∀ region ∈ skipped, region.contains inner = false := by
  rw [methodEnd?, hterminator] at h
  obtain ⟨close, hclose, hend⟩ := Option.map_eq_some_iff.mp h
  obtain ⟨-, hnone⟩ := Option.filter_eq_some_iff.mp hclose
  obtain rfl : close = inner := Nat.succ.inj hend
  intro region hregion
  rw [Option.isNone_iff_eq_none] at hnone
  exact Bool.eq_false_iff.mpr (List.find?_eq_none.mp hnone region hregion)

end ClassBody

namespace Method

/-- The method ends with what stands at `last`, a semicolon if it has no body and else a brace, and
with what trails it on the line. -/
structure EndsAt (src : Source) (m : Method) (last : Nat) : Prop where
  start_le : m.start ≤ last
  lt_stop : last < m.stop
  glyph_eq : src.glyphs[last]? = some (Glyph.code (if m.body = [] then ';' else '\x7d'))
  trails : ∀ g ∈ src.glyphs.extract (last + 1) m.stop, g.char ≠ '\n' ∧ g.isSolid = false

namespace EndsAt

variable {src : Source} {m : Method} {last : Nat}

theorem trails_at (h : m.EndsAt src last) {i : Nat} {g : Glyph} (hlast : last < i)
    (hstop : i < m.stop) (hg : src.glyphs[i]? = some g) : g.char ≠ '\n' ∧ g.isSolid = false := by
  refine h.trails g (List.mem_of_getElem? (i := i - (last + 1)) ?_)
  rw [getElem?_extract _ (by omega), Nat.add_sub_cancel' hlast, hg]

/-- No line begins in what trails a method. -/
theorem stop_le_of_feed (h : m.EndsAt src last) {i : Nat} (hlast : last < i)
    (hfeed : src.text[i - 1]? = some '\n') : m.stop ≤ i := by
  by_contra hin
  obtain ⟨g, hg, hchar⟩ := Option.map_eq_some_iff.mp (src.getElem?_text (i - 1) ▸ hfeed)
  by_cases hbehind : last < i - 1
  · exact (h.trails_at hbehind (by omega) hg).1 hchar
  · -- The line feed would be the brace or the semicolon.
    obtain rfl : i - 1 = last := by omega
    rw [h.glyph_eq, Option.some.injEq] at hg
    rw [← hg] at hchar
    split_ifs at hchar <;> exact absurd hchar (by decide)

/-- A brace behind a semicolon that ends a method stands behind the method. -/
theorem stop_le_of_brace (h : m.EndsAt src last) (hnone : m.body = []) {close : Nat}
    (hlast : last ≤ close) (hbrace : src.glyphs[close]? = some (Glyph.code '\x7d')) :
    m.stop ≤ close := by
  by_contra hin
  rcases Nat.eq_or_lt_of_le hlast with rfl | hbehind
  · rw [h.glyph_eq, if_pos hnone] at hbrace
    exact absurd hbrace (by decide)
  · exact absurd (h.trails_at hbehind (Nat.not_le.mp hin) hbrace).2 (by decide)

end EndsAt

end Method

namespace Reading

open Source

/-- Every method ends so, and no region holds the brace that ends one. -/
theorem exists_endsAt {src : Source} {layout : Layout} (h : ofSource src = .complete layout)
    {m : Method} (hm : m ∈ layout.methods) :
    ∃ last, m.EndsAt src last ∧
      (m.body ≠ [] → ∀ region ∈ layout.skipped, region.contains last = false) := by
  have hskipped := skipped_of_complete h
  obtain ⟨head, hhead, previous, place, ending, inner, -, hdeclares, rfl⟩ :=
    exists_head_of_mem_methods h hm
  obtain ⟨-, -, -, hparenthesis⟩ := MethodHead.mem_allBetween hhead
  obtain ⟨hbehind, hposition, hinner, hle⟩ := ClassBody.extent?_bounds hdeclares.extent_eq
  have htrail := ClassBody.mute_of_mem_trailing src hle
  have hcomment := (ClassBody.afterTrailingComment_bounds src hle).1
  obtain ⟨bodyStart, -, -, hbody⟩ :=
    ClassBody.exists_bodyAt_declared previous place hdeclares.extent_eq
  set m := layout.body.declared src (layout.body.skippedRegions src) previous place head ending inner
    with hm
  by_cases hnone : m.body = []
  · obtain ⟨hstop, last, hlast, hglyph⟩ := hbody.semicolon hnone
    obtain rfl : inner = last + 1 := hstop.trans hlast
    refine ⟨last, ⟨?_, hcomment, ?_, htrail⟩, fun hsome ↦ absurd hnone hsome⟩
    · change head.start ≤ last
      omega
    · rw [hglyph, if_pos hnone]
  · obtain ⟨-, close, rfl, hcloses⟩ := hbody.braces hnone
    have hterminator : ending.terminator = .body := by
      cases hcase : ending.terminator with
      | body => rfl
      | semicolon => simp [hm, ClassBody.declared, hcase] at hnone
    refine ⟨close, ⟨?_, hcomment, ?_, htrail⟩, fun _ ↦ ?_⟩
    · change head.start ≤ close
      omega
    · rw [hcloses.glyph_eq (by decide), if_neg hnone]
    · rw [hskipped]
      exact ClassBody.outside_of_methodEnd? hterminator
        (ClassBody.extent?_eq_some hdeclares.extent_eq).2.2.2

/-- A region that is passed over is apart from a method or lies inside it exactly if it does not hold
the brace or semicolon that ends the method. No region holds the brace, so a region is apart from
every method with a body or lies inside it. A region that holds the semicolon begins inside the
method and ends behind it. -/
theorem apart_or_inside_iff {text : Text} {layout : Layout} (h : ofText text = .complete layout)
    {m : Method} (hm : m ∈ layout.methods) :
    ∃ last, m.EndsAt (Source.ofText text) last ∧
      (∀ region ∈ layout.skipped,
        region.Apart m.span ∨ region.Inside m.span ↔ region.contains last = false) ∧
      (m.body ≠ [] → ∀ region ∈ layout.skipped, region.Apart m.span ∨ region.Inside m.span) ∧
      ∀ region ∈ layout.skipped, region.contains last = true →
        m.start < region.start ∧ region.start < m.stop ∧ m.stop < region.stop := by
  have hplaced := (tiles_of_complete h).placed_of_mem hm
  have hclose := (closeOf?_bounds (ofSource_eq_complete h).2.1).2.le
  obtain ⟨last, hends, houtside⟩ := exists_endsAt h hm
  have hentangled : ∀ region ∈ layout.skipped,
      (region.Apart m.span ∨ region.Inside m.span ↔ region.contains last = false) ∧
        (region.contains last = true →
          m.start < region.start ∧ region.start < m.stop ∧ m.stop < region.stop) := by
    intro region hregion
    have hmem := skipped_of_complete h ▸ hregion
    obtain ⟨hopen, hbegins⟩ := ClassBody.feed_before_of_mem_skippedRegions hclose hmem
    obtain ⟨close, hstop, hbrace⟩ := ClassBody.exists_stop_of_mem_skippedRegions hmem
    refine Region.apart_or_inside_iff_contains (s := m.span) hends.start_le hends.lt_stop
      (not_contains_start h hm region hregion) (fun hlt ↦ ?_) fun hholds ↦ ?_
    · rcases hbegins with hfirst | hfeed
      · -- The body of the class begins before the method.
        have hbefore := hplaced.openBrace_lt
        have hleading := hplaced.leadingStart_le
        have hstart := hends.start_le
        omega
      · exact hends.stop_le_of_feed hlt hfeed
    · have hnone : m.body = [] := by
        by_contra hsome
        rw [houtside hsome region hregion] at hholds
        cases hholds
      have hlast : last < region.stop := by
        simp only [Region.contains, Bool.and_eq_true, decide_eq_true_eq] at hholds
        exact hholds.2
      rw [hstop] at hlast ⊢
      exact Nat.lt_succ_of_le (hends.stop_le_of_brace hnone (Nat.le_of_lt_succ hlast) hbrace)
  refine ⟨last, hends, fun region hregion ↦ (hentangled region hregion).1,
    fun hsome region hregion ↦ ?_, fun region hregion ↦ (hentangled region hregion).2⟩
  exact (hentangled region hregion).1.mpr (houtside hsome region hregion)

/-- A method with a type inside its body and a comment behind it, and a method without a body. -/
def localTypeSource : Text :=
  ("class C \x7b\n  void f() \x7b\n    class L \x7b\x7d\n  \x7d // f\n" ++
    "  int n();\n\x7d\n").toList

/-- The type lies inside the first method. -/
theorem localTypeSource_parted :
    ∃ layout, ofText localTypeSource = .complete layout ∧
      ∃ m ∈ layout.methods, m.body ≠ [] ∧ (∃ region ∈ layout.skipped, region.Inside m.span) ∧
        ∀ region ∈ layout.skipped, region.Apart m.span ∨ region.Inside m.span := by
  have hsome : (ofText localTypeSource).layout?.any fun layout ↦ layout.methods.any fun m ↦
      !m.body.isEmpty && layout.skipped.any fun region ↦ decide (region.Inside m.span) := by
    decide +kernel
  obtain ⟨layout, h, hmethods⟩ := exists_complete_of_any hsome
  obtain ⟨m, hm, hfound⟩ := List.any_eq_true.mp hmethods
  obtain ⟨hbody, hregions⟩ := Bool.and_eq_true_iff.mp hfound
  obtain ⟨region, hregion, hinside⟩ := List.any_eq_true.mp hregions
  have hne : m.body ≠ [] := by simpa using hbody
  obtain ⟨_, -, -, hall, -⟩ := apart_or_inside_iff h hm
  exact ⟨layout, h, m, hm, hne, ⟨region, hregion, of_decide_eq_true hinside⟩, hall hne⟩

/-- A method without a body that ends on the line of a nested type. -/
def semicolonBesideTypeSource : Text :=
  ("class C \x7b\n  abstract void a(\n    int x); class B \x7b\x7d\n" ++ "\x7d\n").toList

/-- The region of the type begins with the line, inside the method, and ends behind the method. -/
theorem semicolonBesideTypeSource_entangled :
    ∃ layout, ofText semicolonBesideTypeSource = .complete layout ∧
      ∃ m ∈ layout.methods, ∃ region ∈ layout.skipped,
        m.body = [] ∧ ¬ (region.Apart m.span ∨ region.Inside m.span) := by
  have hsome : (ofText semicolonBesideTypeSource).layout?.any fun layout ↦
      layout.methods.any fun m ↦ layout.skipped.any fun region ↦
        decide (m.body = [] ∧ ¬ (region.Apart m.span ∨ region.Inside m.span)) := by
    decide +kernel
  obtain ⟨layout, h, hmethods⟩ := exists_complete_of_any hsome
  obtain ⟨m, hm, hregions⟩ := List.any_eq_true.mp hmethods
  obtain ⟨region, hregion, hfound⟩ := List.any_eq_true.mp hregions
  exact ⟨layout, h, m, hm, region, hregion, of_decide_eq_true hfound⟩

end Reading

end MemberOrder
