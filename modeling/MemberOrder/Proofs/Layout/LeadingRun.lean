import Mathlib.Order.Bounds.Defs
import MemberOrder.Proofs.Layout.Climb

/-!
The leading lines of a method are the longest run of lines that lead it. They begin at the first
line start behind everything that cannot lead the method from which on all lines up to it lead. What
cannot lead it ends with the method before it, or with the last region before it that is passed
over, whichever comes later.
-/

set_option autoImplicit false

namespace MemberOrder

/-! ### Lines that lead -/

/-- A line leads a declaration if it is blank, begins with an annotation or holds no code. -/
def Source.Leads (line : List Glyph) : Prop :=
  (∀ g ∈ line, g.isBlank = true) ∨
    (∃ blanks mark rest, line = blanks ++ mark :: rest ∧ (∀ g ∈ blanks, g.isBlank = true) ∧
      mark.char = '@') ∨
    ∀ g ∈ line, g.isSolid = false

/-- The stretch from `first` up to `last` is one of the lines into which line feeds part the stretch
from `start` up to `stop`. -/
structure Source.LineBetween (src : Source) (start stop first last : Nat) : Prop where
  start_le : start ≤ first
  first_le : first ≤ last
  last_le : last ≤ stop
  begins : first = start ∨ src.text[first - 1]? = some '\n'
  ends : last = stop ∨ src.text[last]? = some '\n'
  unbroken : ∀ i, first ≤ i → i < last → src.text[i]? ≠ some '\n'

/-- The line starts behind `floor` from which on every line up to `start` leads. -/
def Source.leadingStarts (src : Source) (floor start : Nat) : Set Nat :=
  {p | floor < p ∧ p ≤ start ∧ src.text[p - 1]? = some '\n' ∧
    ∀ first last, src.LineBetween p start first last → Leads (src.glyphs.extract first last)}

/-- Where something ends that cannot lead a declaration at `start` behind the methods of `front`:
the last of these methods, or what opens the body, and the regions before the declaration. -/
def Layout.endsBefore (layout : Layout) (front : List Method) (start : Nat) : Set Nat :=
  {p | p = Method.lastStop (layout.body.openBrace + 1) front ∨
    ∃ region ∈ layout.skipped, region.stop ≤ start ∧ p = region.stop}

namespace Source

theorem leads_nil : Leads [] := Or.inl (by simp)

/-- The line feed that ends a line has no say in whether the line leads. -/
theorem isLeadingLine_concat_iff {line : List Glyph} {feed : Glyph} (hfeed : feed.char = '\n') :
    isLeadingLine (line ++ [feed]) = true ↔ Leads line := by
  have hblank : feed.isBlank = true := by
    rw [Glyph.isBlank, hfeed]
    decide
  have hmute {g : Glyph} (hg : g.isBlank = true) : g.isSolid = false := by simp [Glyph.isSolid, hg]
  rw [isLeadingLine, Bool.or_eq_true, List.all_append, Bool.and_eq_true, List.all_eq_true]
  constructor
  · rintro (⟨hall, -⟩ | hmark)
    · exact Or.inr (Or.inr fun g hg ↦ by simpa using hall g hg)
    · rw [List.dropWhile_append] at hmark
      cases hdrop : line.dropWhile (·.isBlank) with
      | nil => simp [hdrop, hblank] at hmark
      | cons mark rest =>
        refine Or.inr (Or.inl ⟨line.takeWhile (·.isBlank), mark, rest, ?_, fun g hg ↦ ?_, ?_⟩)
        · rw [← hdrop, List.takeWhile_append_dropWhile]
        · exact List.mem_takeWhile_imp hg
        · simpa [hdrop] using hmark
  · rintro (hall | ⟨blanks, mark, rest, rfl, hblanks, hmark⟩ | hall)
    · exact Or.inl ⟨fun g hg ↦ by simp [hmute (hall g hg)], by simp [hmute hblank]⟩
    · right
      have hsolid : mark.isBlank = false := by
        rw [Glyph.isBlank, hmark]
        decide
      rw [List.append_assoc, List.dropWhile_append_of_pos hblanks]
      simp [hsolid, hmark]
    · exact Or.inl ⟨fun g hg ↦ by simp [hall g hg], by simp [hmute hblank]⟩

/-! ### One line up -/

variable {src : Source} {floor : Nat}

/-- Between a line start and itself there is but an empty line. -/
theorem self_mem_leadingStarts {p : Nat} (hfloor : floor < p)
    (hfeed : src.text[p - 1]? = some '\n') : p ∈ src.leadingStarts floor p := by
  refine ⟨hfloor, Nat.le_refl p, hfeed, fun first last hline ↦ ?_⟩
  obtain rfl : first = last :=
    le_antisymm hline.first_le (hline.last_le.trans hline.start_le)
  simpa using leads_nil

/-- A line that ends before the stretch does is a line of every other stretch it lies in. -/
theorem LineBetween.of_lt {start stop other first last : Nat}
    (h : src.LineBetween start stop first last) (hlt : last < stop) (hle : last ≤ other) :
    src.LineBetween start other first last :=
  ⟨h.start_le, h.first_le, hle, h.begins, Or.inr (h.ends.resolve_left hlt.ne), h.unbroken⟩

/-- No line feed stands inside a line. -/
theorem LineBetween.lt_or_le_of_feed {start stop first last i : Nat}
    (h : src.LineBetween start stop first last) (hfeed : src.text[i]? = some '\n') :
    i < first ∨ last ≤ i := by
  by_contra! hinside
  exact h.unbroken i hinside.1 hinside.2 hfeed

/-- Where the line of the last line feed begins before `p`, no line starts at `p` but behind it. -/
theorem eq_of_mem_leadingStarts {p line n : Nat}
    (hnext : ∀ i, src.text[i]? = some '\n' → i < line ∨ n ≤ i)
    (h : p ∈ src.leadingStarts floor (n + 1)) (hp : line < p) : p = n + 1 := by
  obtain ⟨-, hle, hfeed, -⟩ := h
  have hplace := hnext (p - 1) hfeed
  omega

section Line

variable {last n p : Nat} (hbelow : last < n) (hlast : src.text[last]? = some '\n')
  (hfeed : src.text[n]? = some '\n')
  (hnext : ∀ i, src.text[i]? = some '\n' → i < last + 1 ∨ n ≤ i) (hp : p ≤ last + 1)

include hbelow hlast hfeed hnext hp

/-- Up to the next line feed there is one line more, and the empty one behind that. -/
theorem LineBetween.cases_last {first stop : Nat} (h : src.LineBetween p (n + 1) first stop) :
    src.LineBetween p (last + 1) first stop ∨ first = last + 1 ∧ stop = n ∨ first = stop := by
  have hle := h.first_le
  have hstop := h.last_le
  rcases h.lt_or_le_of_feed hlast with hbehind | hbefore
  · rcases h.lt_or_le_of_feed hfeed with hbeyond | hwithin
    · exact Or.inr (Or.inr (by omega))
    · have hends := hnext stop (h.ends.resolve_left (by omega))
      have hbegins : first = p ∨ first - 1 < last + 1 ∨ n ≤ first - 1 :=
        h.begins.imp_right (hnext (first - 1))
      exact Or.inr (Or.inl ⟨by omega, by omega⟩)
  · exact Or.inl (h.of_lt (by omega) (by omega))

/-- All lines lead up to the next line feed if they do up to the last one, and the line between the
two does. -/
theorem mem_leadingStarts_succ_iff :
    p ∈ src.leadingStarts floor (n + 1) ↔
      p ∈ src.leadingStarts floor (last + 1) ∧ Leads (src.glyphs.extract (last + 1) n) := by
  constructor
  · rintro ⟨hfloor, -, hbreak, hleads⟩
    refine ⟨⟨hfloor, hp, hbreak, fun first stop h ↦ ?_⟩, hleads (last + 1) n ?_⟩
    · have hle := h.first_le
      have hstop := h.last_le
      rcases h.lt_or_le_of_feed hlast with hbehind | hbefore
      · obtain rfl : first = stop := by omega
        simpa using leads_nil
      · exact hleads first stop (h.of_lt (by omega) (by omega))
    · refine ⟨hp, hbelow, Nat.le_succ n, Or.inr hlast, Or.inr hfeed, fun i hi hlt hbreak ↦ ?_⟩
      have hplace := hnext i hbreak
      omega
  · rintro ⟨⟨hfloor, -, hbreak, hleads⟩, hline⟩
    refine ⟨hfloor, by omega, hbreak, fun first stop h ↦ ?_⟩
    rcases h.cases_last hbelow hlast hfeed hnext hp with h | ⟨rfl, rfl⟩ | rfl
    · exact hleads first stop h
    · exact hline
    · simpa using leads_nil

end Line

/-! ### The whole run -/

/-- The leading lines begin at the first line start from which on all lines lead, if no line begins
at the floor. -/
theorem isLeast_leadingLines {position : Nat} (hfloor : floor < position)
    (hpart : src.beginsLineAt floor = false) (hposition : src.text[position - 1]? = some '\n') :
    IsLeast (src.leadingStarts floor position)
      (position - (src.leadingLines floor position).length) := by
  induction position using Nat.strong_induction_on with
  | _ position ih =>
    obtain ⟨n, rfl⟩ := Nat.exists_eq_add_one_of_ne_zero (Nat.ne_zero_of_lt hfloor)
    have hle : floor ≤ n := Nat.le_of_lt_succ hfloor
    have hself : n + 1 ∈ src.leadingStarts floor (n + 1) := self_mem_leadingStarts hfloor hposition
    obtain ⟨feed, hglyph, hchar⟩ :=
      Option.map_eq_some_iff.mp ((src.getElem?_text n).symm.trans hposition)
    cases hlast : src.lastOf? '\n' floor n with
    | none =>
      -- The stretch is the rest of the line on which the floor stands.
      have hnext : ∀ i, src.text[i]? = some '\n' → i < floor ∨ n ≤ i := by
        intro i hi
        by_contra! hinside
        exact forall_ne_of_lastOf?_eq_none hlast i hinside.1 hinside.2 hi
      rw [leadingLines_of_lastOf?_eq_none hglyph hchar hle hlast, hpart]
      refine ⟨hself, fun p hp ↦ ?_⟩
      exact (eq_of_mem_leadingStarts hnext hp hp.1).ge
    | some last =>
      obtain ⟨hfirst, hbelow, hbreak, hlater⟩ := lastOf?_eq_some hlast
      have hnext : ∀ i, src.text[i]? = some '\n' → i < last + 1 ∨ n ≤ i := by
        intro i hi
        by_contra! hinside
        exact hlater i hinside.1 hinside.2 hi
      have hstep {p : Nat} (hp : p ≤ last + 1) :
          p ∈ src.leadingStarts floor (n + 1) ↔ p ∈ src.leadingStarts floor (last + 1) ∧
            Leads (src.glyphs.extract (last + 1) n) :=
        mem_leadingStarts_succ_iff hbelow hbreak hposition hnext hp
      rw [leadingLines_of_lastOf?_eq_some hglyph hchar hlast]
      split_ifs with hleads
      · -- The line joins the run that ends above it.
        obtain ⟨hmem, hleast⟩ := ih (last + 1) (by omega) (by omega) hbreak
        have hinside : n + 1 ≤ src.text.length := (List.getElem?_eq_some_iff.mp hposition).1
        have hjoined : n + 1 - (src.leadingLines floor (last + 1) ++
              src.text.extract (last + 1) (n + 1)).length =
            last + 1 - (src.leadingLines floor (last + 1)).length := by
          rw [List.length_append, length_extract _ (by omega) hinside]
          omega
        rw [hjoined]
        refine ⟨(hstep (Nat.sub_le _ _)).mpr ⟨hmem, (isLeadingLine_concat_iff hchar).mp hleads⟩,
          fun p hp ↦ ?_⟩
        rcases Nat.lt_or_ge (last + 1) p with hbehind | habove
        · exact (Nat.sub_le _ _).trans hbehind.le
        · exact hleast ((hstep habove).mp hp).1
      · refine ⟨hself, fun p hp ↦ ?_⟩
        have hbehind : last + 1 < p := by
          by_contra! hp'
          exact hleads ((isLeadingLine_concat_iff hchar).mpr ((hstep hp').mp hp).2)
        exact (eq_of_mem_leadingStarts hnext hp hbehind).ge

end Source

namespace ClassBody

variable {skipped : List Region}

theorem stop_le_leadingFloor {region : Region} {start : Nat} (h : region ∈ skipped)
    (hbefore : region.stop ≤ start) (previous : Nat) :
    region.stop ≤ leadingFloor skipped previous start := by
  induction skipped generalizing previous with
  | nil => simp at h
  | cons other rest ih =>
    rcases List.mem_cons.mp h with rfl | h
    · calc region.stop ≤ max previous region.stop := Nat.le_max_right _ _
        _ ≤ leadingFloor rest (max previous region.stop) start := le_leadingFloor _ _
        _ = leadingFloor (region :: rest) previous start := by simp [leadingFloor, hbefore]
    · exact ih h _

end ClassBody

theorem Layout.isGreatest_floorBefore (layout : Layout) (front : List Method) (start : Nat) :
    IsGreatest (layout.endsBefore front start) (layout.floorBefore front start) := by
  constructor
  · refine ClassBody.leadingFloor_induction (P := (· ∈ layout.endsBefore front start)) (Or.inl rfl) ?_
    intro region hregion hbefore
    exact Or.inr ⟨region, hregion, hbefore, rfl⟩
  · rintro p (rfl | ⟨region, hregion, hbefore, rfl⟩)
    · exact ClassBody.le_leadingFloor _ _
    · exact ClassBody.stop_le_leadingFloor hregion hbefore _

namespace Reading

open Source

/-- The leading lines of a method are the longest run of lines that lead it: they begin at the first
line start, behind the end of everything that cannot lead it, from which on every line does. -/
theorem isLeast_leadingStart {text : Text} {layout : Layout} (h : ofText text = .complete layout)
    {front back : List Method} {m : Method} (hsplit : layout.methods = front ++ m :: back) :
    ∃ floor, IsGreatest (layout.endsBefore front m.start) floor ∧
      IsLeast ((Source.ofText text).leadingStarts floor m.start) m.leadingStart := by
  have hm : m ∈ layout.methods := hsplit ▸ List.mem_append_right _ List.mem_cons_self
  have hfeed := feed_before_start h hm
  have hpart := beginsLineAt_eq_false (endsInCodeLine_floorBefore h hsplit)
  obtain ⟨hle, hleading⟩ := leading_eq_leadingLines h hsplit
  have hlt : layout.floorBefore front m.start < m.start := by
    refine lt_of_le_of_ne hle fun heq ↦ ?_
    rw [heq, beginsLineAt_of_feed hfeed] at hpart
    cases hpart
  refine ⟨layout.floorBefore front m.start, layout.isGreatest_floorBefore front m.start, ?_⟩
  have hleast := isLeast_leadingLines hlt hpart hfeed
  rwa [← hleading] at hleast

/-- Between two methods a comment, a block that is passed over, and behind that a blank line, a
comment and an annotation. -/
def ledMethodSource : Text :=
  ("class C \x7b\n  void a() \x7b\x7d // a\n  // one\n  static \x7b\x7d // b\n\n" ++
    "  /* two */\n  @A\n  void f() \x7b\x7d\n\x7d\n").toList

/-- The second method is led by the lines behind the block, the blank one included. -/
theorem ledMethodSource_run :
    ∃ layout, ofText ledMethodSource = .complete layout ∧ ∃ a f, layout.methods = [a] ++ f :: [] ∧
      f.leading = "\n  /* two */\n  @A\n".toList ∧
      ∃ floor, IsGreatest (layout.endsBefore [a] f.start) floor ∧
        IsLeast ((Source.ofText ledMethodSource).leadingStarts floor f.start) f.leadingStart := by
  have hsome : (ofText ledMethodSource).layout?.any fun layout ↦ layout.methods.length == 2 &&
      layout.methods[1]?.any fun f ↦ f.leading == "\n  /* two */\n  @A\n".toList := by
    decide +kernel
  obtain ⟨layout, h, hmethods⟩ := exists_complete_of_any hsome
  obtain ⟨hlength, hleading⟩ := Bool.and_eq_true_iff.mp hmethods
  obtain ⟨a, f, hsplit⟩ := List.length_eq_two.mp (beq_iff_eq.mp hlength)
  rw [hsplit] at hleading
  exact ⟨layout, h, a, f, hsplit, beq_iff_eq.mp hleading, @isLeast_leadingStart _ _ h [a] [] f hsplit⟩

end Reading

end MemberOrder
