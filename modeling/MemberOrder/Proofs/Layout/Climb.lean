import MemberOrder.Proofs.Layout.Cuts
import MemberOrder.Proofs.Layout.Walk

/-!
Climbing from a declaration to its leading lines. The climb goes up line by line, asks of each line
whether it leads, and stops at the first that does not, or at the floor. It does not fail, every
line takes it further up, and it ends where the leading lines start.
-/

set_option autoImplicit false

namespace MemberOrder.Source

section Lines

variable {content : List Glyph} {feed : Glyph}

theorem linesOf_line (hcontent : ∀ g ∈ content, g.char ≠ '\n') (hfeed : feed.char = '\n') :
    linesOf (content ++ [feed]) = [content ++ [feed]] := by
  induction content with
  | nil => simp [linesOf, hfeed]
  | cons g rest ih =>
    have hrest := ih fun other hother ↦ hcontent other (List.mem_cons_of_mem _ hother)
    rw [List.cons_append, linesOf, if_neg (hcontent g List.mem_cons_self), hrest]

/-- The leading lines of a single line: the line, if it is whole and leads. -/
theorem leadingIn_line (wholeLine : Bool) (hcontent : ∀ g ∈ content, g.char ≠ '\n')
    (hfeed : feed.char = '\n') :
    leadingIn wholeLine (content ++ [feed]) =
      if wholeLine && isLeadingLine (content ++ [feed]) then content ++ [feed] else [] := by
  rw [leadingIn_eq, linesOf_line hcontent hfeed]
  cases wholeLine with
  | false => rfl
  | true =>
    cases hleads : isLeadingLine (content ++ [feed]) <;> simp [List.rtakeWhile, hleads]

/-- Behind a stretch that ends a line, a line that leads joins the leading lines before it. -/
theorem leadingIn_append_line (wholeLine : Bool) {front : List Glyph} {g : Glyph}
    (hg : g.char = '\n') (hcontent : ∀ g ∈ content, g.char ≠ '\n') (hfeed : feed.char = '\n') :
    leadingIn wholeLine (front ++ [g] ++ (content ++ [feed])) =
      if isLeadingLine (content ++ [feed]) then
        leadingIn wholeLine (front ++ [g]) ++ (content ++ [feed])
      else [] := by
  have hpos : 0 < (linesOf (front ++ [g])).length := by
    rw [List.length_pos_iff]
    intro hnone
    have hflat := flatten_linesOf (front ++ [g])
    rw [hnone] at hflat
    simp at hflat
  rw [leadingIn_eq, leadingIn_eq, linesOf_append_feed front hg, linesOf_line hcontent hfeed,
    List.drop_append_of_le_length (by split_ifs <;> omega), List.rtakeWhile_concat]
  split_ifs <;> simp

end Lines

/-- Where the line above a position starts, not below the floor. Nothing, where the floor stands in
the middle of the line. -/
def lineAbove? (src : Source) (floor position : Nat) : Except WalkFault (Option Nat) :=
  match src.lastOf? '\n' floor (position - 1) with
  | some feed => return some (feed + 1)
  | none =>
    if floor = 0 then return some floor
    else do
      let c ← look (src.characterAt ((floor : Int) - 1))
      return if c = '\n' then some floor else none

/-- Does the line from `start` up to the line feed at `stop` lead a declaration? -/
def lookLeading (src : Source) (start stop : Nat) : Except WalkFault Bool :=
  let line := src.text.extract start stop
  if Text.allBlank line || (line.dropWhile Text.isBlank).head?.any (· == '@') then return true
  else look (src.rangeIsMute start stop)

/-- Goes up from a position for as long as the line above it leads. -/
def climb (src : Source) (floor position : Nat) : Except WalkFault Nat :=
  if floor < position then do
    match ← src.lineAbove? floor position with
    | none => return position
    | some line =>
      if ← src.lookLeading line (position - 1) then
        if line < position then src.climb floor line else throw .standstill
      else return position
  else return position
termination_by position

variable {src : Source}

/-- A line is asked about without its line feed, which does not change the answer. -/
theorem lookLeading_eq {start stop : Nat} {feed : Glyph} (hstop : stop ≤ src.length)
    (hfeed : feed.char = '\n') :
    src.lookLeading start stop =
      .ok (isLeadingLine (src.glyphs.extract start stop ++ [feed])) := by
  set content := src.glyphs.extract start stop with hcontent
  have hblank : feed.isBlank = true := by
    rw [Glyph.isBlank, hfeed]
    decide
  have hmute : feed.isSolid = false := by simp [Glyph.isSolid, hblank]
  have hmark : ((src.text.extract start stop).dropWhile Text.isBlank).head?.any (· == '@') =
      ((content ++ [feed]).dropWhile (·.isBlank)).head?.any (·.char == '@') := by
    have hchars : (src.text.extract start stop).dropWhile Text.isBlank =
        (content.dropWhile (·.isBlank)).map Glyph.char := by
      rw [← src.map_char_extract, List.dropWhile_map]
      rfl
    rw [hchars, List.dropWhile_append]
    cases hdrop : content.dropWhile (·.isBlank) with
    | nil => simp [hblank]
    | cons g rest => simp
  have hall : Text.allBlank (src.text.extract start stop) = true → content.all (!·.isSolid) := by
    rw [← src.map_char_extract, Text.allBlank, List.all_map]
    intro hblanks
    rw [List.all_eq_true] at hblanks ⊢
    intro g hg
    have hblank := hblanks g hg
    simp only [Function.comp_apply] at hblank
    simp [Glyph.isSolid, Glyph.isBlank, hblank]
  unfold lookLeading isLeadingLine
  simp only [hmark, rangeIsMute_eq hstop, List.all_append, ← hcontent]
  split_ifs with hleads
  · rcases (Bool.or_eq_true _ _).mp hleads with hblanks | hat
    · have hmutes : (content.all (!·.isSolid) && [feed].all (!·.isSolid)) = true := by
        simp [hall hblanks, hmute]
      rw [hmutes, Bool.true_or]
      rfl
    · rw [hat, Bool.or_true]
      rfl
  · simp only [Bool.or_eq_true, not_or, Bool.not_eq_true] at hleads
    rw [hleads.2]
    simp [look, Except.mapError, hmute]

theorem ne_feed_of_mem_extract {start stop : Nat}
    (h : ∀ i, start ≤ i → i < stop → src.text[i]? ≠ some '\n') :
    ∀ g ∈ src.glyphs.extract start stop, g.char ≠ '\n' := by
  intro g hg hchar
  obtain ⟨i, hi⟩ := List.mem_iff_getElem?.mp hg
  rw [List.extract_eq_take_drop, List.getElem?_take, List.getElem?_drop] at hi
  split_ifs at hi with hlt
  refine h (start + i) (Nat.le_add_right _ _) (by omega) ?_
  rw [src.getElem?_text, hi, Option.map_some, hchar]

/-- Where no line feed stands between, the line above starts at the floor, if one does there. -/
theorem lineAbove?_of_none {floor : Nat} (position : Nat) (hfloor : floor ≤ src.text.length)
    (h : src.lastOf? '\n' floor (position - 1) = none) :
    src.lineAbove? floor position = .ok (if src.beginsLineAt floor then some floor else none) := by
  unfold lineAbove?
  rw [h]
  cases floor with
  | zero => rfl
  | succ i =>
    obtain ⟨c, hc⟩ : ∃ c, src.text[i]? = some c := ⟨_, List.getElem?_eq_getElem hfloor⟩
    have hlook : src.characterAt (((i + 1 : Nat) : Int) - 1) = .ok c := by
      rw [show ((i + 1 : Nat) : Int) - 1 = (i : Nat) by omega]
      exact characterAt_eq hc
    simp only [hlook, look, Except.mapError, bind, Except.bind, beginsLineAt, hc]
    by_cases hchar : c = '\n' <;> simp [hchar, pure, Except.pure]

/-- One line of the climb: it goes on from the start of the line if the line leads. -/
theorem climb_succ {floor line n : Nat} {feed : Glyph} (hfloor : floor ≤ n) (hline : line ≤ n)
    (hfeed : src.glyphs[n]? = some feed) (hchar : feed.char = '\n')
    (habove : src.lineAbove? floor (n + 1) = .ok (some line)) :
    src.climb floor (n + 1) =
      if isLeadingLine (src.glyphs.extract line n ++ [feed]) then src.climb floor line
      else .ok (n + 1) := by
  have hinside : n ≤ src.length := (List.getElem?_eq_some_iff.mp hfeed).1.le
  rw [climb, if_pos (Nat.lt_succ_of_le hfloor), habove]
  simp only [bind, Except.bind, Nat.add_sub_cancel, lookLeading_eq hinside hchar,
    if_pos (Nat.lt_succ_of_le hline)]
  rfl

section Line

variable {floor n : Nat} {feed : Glyph} (hfeed : src.glyphs[n]? = some feed)
  (hchar : feed.char = '\n')

include hfeed hchar

/-- The leading lines where the stretch down to the floor is one line. -/
theorem leadingLines_of_lastOf?_eq_none (hle : floor ≤ n)
    (hlast : src.lastOf? '\n' floor n = none) :
    src.leadingLines floor (n + 1) =
      if src.beginsLineAt floor && isLeadingLine (src.glyphs.extract floor n ++ [feed]) then
        src.text.extract floor (n + 1)
      else [] := by
  have hcontent := ne_feed_of_mem_extract (forall_ne_of_lastOf?_eq_none hlast)
  rw [leadingLines_eq_map, ← src.map_char_extract, extract_eq_concat hfeed hle,
    leadingIn_line _ hcontent hchar]
  split_ifs <;> rfl

/-- The leading lines where the last line of the stretch starts behind a line feed. -/
theorem leadingLines_of_lastOf?_eq_some {last : Nat}
    (hlast : src.lastOf? '\n' floor n = some last) :
    src.leadingLines floor (n + 1) =
      if isLeadingLine (src.glyphs.extract (last + 1) n ++ [feed]) then
        src.leadingLines floor (last + 1) ++ src.text.extract (last + 1) (n + 1)
      else [] := by
  obtain ⟨hfirst, hbelow, hbreak, hlater⟩ := lastOf?_eq_some hlast
  obtain ⟨g, hg, hgchar⟩ := Option.map_eq_some_iff.mp ((src.getElem?_text last).symm.trans hbreak)
  have hcontent := ne_feed_of_mem_extract fun i hi ↦ hlater i hi
  rw [leadingLines_eq_map, leadingLines_eq_map, ← src.map_char_extract,
    ← extract_append_extract src.glyphs (show floor ≤ last + 1 by omega)
      (show last + 1 ≤ n + 1 by omega),
    extract_eq_concat hfeed hbelow, extract_eq_concat hg hfirst,
    leadingIn_append_line _ hgchar hcontent hchar]
  split_ifs
  · rw [List.map_append]
  · rfl

end Line

/-- The climb from a line start ends where the leading lines start. -/
theorem climb_eq {floor position : Nat} (hfloor : floor ≤ position)
    (hposition : position ≤ src.text.length)
    (hline : floor < position → src.text[position - 1]? = some '\n') :
    src.climb floor position = .ok (position - (src.leadingLines floor position).length) := by
  induction position using Nat.strong_induction_on with
  | _ position ih =>
    rcases Nat.eq_or_lt_of_le hfloor with rfl | hlt
    · have hnone : (src.leadingLines floor floor).length = 0 := by
        have hlength := src.length_leadingLines_le floor floor
        omega
      rw [climb, if_neg (Nat.lt_irrefl _), hnone]
      rfl
    · obtain ⟨n, rfl⟩ := Nat.exists_eq_add_one_of_ne_zero (Nat.ne_zero_of_lt hlt)
      have hle : floor ≤ n := Nat.le_of_lt_succ hlt
      obtain ⟨feed, hfeed, hchar⟩ :=
        Option.map_eq_some_iff.mp ((src.getElem?_text n).symm.trans (hline hlt))
      cases hlast : src.lastOf? '\n' floor n with
      | none =>
        have habove := lineAbove?_of_none (n + 1) (hfloor.trans hposition) hlast
        rw [leadingLines_of_lastOf?_eq_none hfeed hchar hle hlast]
        by_cases hwhole : src.beginsLineAt floor = true
        · rw [if_pos hwhole] at habove
          rw [climb_succ hle hle hfeed hchar habove, hwhole, Bool.true_and]
          split_ifs
          · rw [length_extract _ hfloor hposition, Nat.sub_sub_self hfloor, climb,
              if_neg (Nat.lt_irrefl _)]
            rfl
          · rfl
        · rw [if_neg hwhole] at habove
          rw [climb, if_pos hlt, habove, if_neg (by simp [hwhole])]
          rfl
      | some last =>
        obtain ⟨hfirst, hbelow, hbreak, -⟩ := lastOf?_eq_some hlast
        have habove : src.lineAbove? floor (n + 1) = .ok (some (last + 1)) := by
          unfold lineAbove?
          rw [Nat.add_sub_cancel, hlast]
          rfl
        rw [leadingLines_of_lastOf?_eq_some hfeed hchar hlast,
          climb_succ hle hbelow hfeed hchar habove]
        split_ifs
        · rw [ih (last + 1) (by omega) (by omega) (by omega) fun _ ↦ hbreak, List.length_append,
            length_extract _ (by omega) hposition]
          congr 1
          omega
        · rfl

end MemberOrder.Source
