import Mathlib.Data.List.Basic
import MemberOrder.Layout.Basic

/-!
What a reading keeps of its text: every character, in order. Positions that queries about a source
give back lie in it, and a search of a stretch of text finds nothing outside the stretch.
-/

set_option autoImplicit false

namespace MemberOrder

/-- Two stretches that meet are one. -/
theorem extract_append_extract {α : Type} (l : List α) {a b c : Nat} (hab : a ≤ b) (hbc : b ≤ c) :
    l.extract a b ++ l.extract b c = l.extract a c := by
  simp only [List.extract_eq_take_drop]
  have hdrop : l.drop b = (l.drop a).drop (b - a) := by
    rw [List.drop_drop]
    congr 1
    omega
  rw [hdrop, ← List.take_add]
  congr 1
  omega

theorem take_append_extract {α : Type} (l : List α) {a b : Nat} (h : a ≤ b) :
    l.take a ++ l.extract a b = l.take b := by
  have hzero (n : Nat) : l.take n = l.extract 0 n := by simp
  rw [hzero a, hzero b]
  exact extract_append_extract l (Nat.zero_le a) h

theorem length_extract {α : Type} (l : List α) {a b : Nat} (hab : a ≤ b) (hb : b ≤ l.length) :
    (l.extract a b).length = b - a := by
  rw [List.extract_eq_take_drop, List.length_take, List.length_drop]
  omega

theorem getElem?_extract {α : Type} (l : List α) {a b i : Nat} (hi : i < b - a) :
    (l.extract a b)[i]? = l[a + i]? := by
  rw [List.extract_eq_take_drop, List.getElem?_take_of_lt hi, List.getElem?_drop]

theorem extract_eq_cons {α : Type} {l : List α} {a b : Nat} {x : α} (h : l[a]? = some x)
    (hab : a < b) : l.extract a b = x :: l.extract (a + 1) b := by
  obtain ⟨hlt, hx⟩ := List.getElem?_eq_some_iff.mp h
  rw [List.extract_eq_take_drop, List.extract_eq_take_drop, List.drop_eq_getElem_cons hlt, hx,
    show b - a = b - (a + 1) + 1 by omega, List.take_succ_cons]

theorem extract_eq_concat {α : Type} {l : List α} {a b : Nat} {x : α} (h : l[b]? = some x)
    (hab : a ≤ b) : l.extract a (b + 1) = l.extract a b ++ [x] := by
  rw [← extract_append_extract l hab (Nat.le_succ b), extract_eq_cons h (Nat.lt_succ_self b)]
  simp

theorem getLast?_extract {α : Type} {l : List α} {a b : Nat} (hab : a < b) (hb : b ≤ l.length) :
    (l.extract a b).getLast? = l[b - 1]? := by
  obtain ⟨i, rfl⟩ := Nat.exists_eq_add_of_lt hab
  rw [Nat.add_sub_cancel, extract_eq_concat (List.getElem?_eq_getElem hb) (Nat.le_add_right a i),
    List.getLast?_concat, List.getElem?_eq_getElem hb]

theorem drop_drop_sub {α : Type} (l : List α) {a b : Nat} (h : a ≤ b) :
    (l.drop a).drop (b - a) = l.drop b := by
  rw [List.drop_drop, Nat.add_sub_cancel' h]

namespace Source

theorem map_char_scan (mode : Mode) (t : Text) : (scan mode t).map Glyph.char = t := by
  fun_induction scan mode t <;> simp_all [Glyph.code, Glyph.mute]

theorem length_scan (mode : Mode) (t : Text) : (scan mode t).length = t.length := by
  rw [← List.length_map Glyph.char, map_char_scan]

theorem map_char_glyphs (src : Source) : src.glyphs.map Glyph.char = src.text := by
  rw [src.glyphs_eq, map_char_scan]

theorem getElem?_text (src : Source) (i : Nat) : src.text[i]? = src.glyphs[i]?.map Glyph.char := by
  rw [← src.map_char_glyphs, List.getElem?_map]

theorem exists_code_of_isCodeAt {src : Source} {i : Nat} (h : src.isCodeAt i = true) :
    ∃ c, src.glyphs[i]? = some (Glyph.code c) := by
  unfold isCodeAt at h
  cases hglyph : src.glyphs[i]? with
  | none => simp [hglyph] at h
  | some g =>
    obtain ⟨c, isCode⟩ := g
    have hisCode : isCode = true := by simpa [hglyph] using h
    exact ⟨c, by rw [hisCode]; rfl⟩

theorem isCodeChar_iff (g : Glyph) (c : Char) : g.isCodeChar c = true ↔ g = Glyph.code c := by
  obtain ⟨char, isCode⟩ := g
  simp [Glyph.isCodeChar, Glyph.code, and_comm]

theorem isCode_and_char_eq_iff (g : Glyph) (c : Char) :
    (g.isCode && [g.char] == [c]) = true ↔ g = Glyph.code c := by
  rw [← isCodeChar_iff]
  simp [Glyph.isCodeChar]

theorem length_glyphs (src : Source) : src.glyphs.length = src.text.length := by
  rw [src.glyphs_eq, length_scan]

theorem map_char_extract (src : Source) (start stop : Nat) :
    (src.glyphs.extract start stop).map Glyph.char = src.text.extract start stop := by
  rw [← src.map_char_glyphs]
  simp [List.map_take, List.map_drop]

theorem closeIn_lt {opening closing : Text} {depth i : Nat} {stretch : List Glyph}
    (h : closeIn opening closing depth stretch = some i) : i < stretch.length := by
  induction stretch generalizing depth i with
  | nil => simp [closeIn] at h
  | cons g rest ih =>
    rw [closeIn] at h
    split_ifs at h with hopen hclose hdepth
    · obtain ⟨j, hj, rfl⟩ := Option.map_eq_some_iff.mp h
      exact Nat.succ_lt_succ (ih hj)
    · cases h
      exact Nat.succ_pos _
    · obtain ⟨j, hj, rfl⟩ := Option.map_eq_some_iff.mp h
      exact Nat.succ_lt_succ (ih hj)
    · obtain ⟨j, hj, rfl⟩ := Option.map_eq_some_iff.mp h
      exact Nat.succ_lt_succ (ih hj)

/-- A delimiter that is closed opens at its place, and what closes it is found behind it. -/
theorem closeOf?_eq_some {src : Source} {opening closing : Text} {start close : Nat}
    (h : src.closeOf? opening closing start = some close) :
    ∃ g rest i, src.glyphs.drop start = g :: rest ∧ (g.isCode && [g.char] == opening) = true ∧
      closeIn opening closing 1 rest = some i ∧ close = start + 1 + i := by
  unfold closeOf? at h
  cases hdrop : src.glyphs.drop start with
  | nil => simp [hdrop] at h
  | cons g rest =>
    rw [hdrop] at h
    simp only at h
    split_ifs at h with hopen
    obtain ⟨i, hi, rfl⟩ := Option.map_eq_some_iff.mp h
    exact ⟨g, rest, i, rfl, hopen, hi, rfl⟩

/-- A delimiter closes behind its opening and inside the source. -/
theorem closeOf?_bounds {src : Source} {opening closing : Text} {start close : Nat}
    (h : src.closeOf? opening closing start = some close) :
    start < close ∧ close < src.text.length := by
  obtain ⟨g, rest, i, hdrop, -, hi, rfl⟩ := closeOf?_eq_some h
  have hlt := closeIn_lt hi
  have hlength := congrArg List.length hdrop
  rw [List.length_drop, List.length_cons, src.length_glyphs] at hlength
  omega

end Source

namespace Text

theorem isBlank_of_isLineFill {c : Char} (h : isLineFill c = true) : isBlank c = true := by
  simp only [isLineFill, isIndent, Bool.or_eq_true, beq_iff_eq] at h
  rcases h with (rfl | rfl) | rfl <;> decide

theorem charBefore?_succ (t : Text) (i : Nat) : t.charBefore? (i + 1) = t[i]? := rfl

/-- Where a line begins stands a line feed before it, if anything does. -/
theorem feed_of_beginsLine {t : Text} {i : Nat} (h : beginsLine (t.charBefore? i) = true)
    (hpos : 0 < i) (hi : i ≤ t.length) : t[i - 1]? = some '\n' := by
  obtain ⟨k, rfl⟩ := Nat.exists_eq_add_of_le' hpos
  obtain ⟨c, hc⟩ : ∃ c, t[k]? = some c := ⟨_, List.getElem?_eq_getElem (by omega)⟩
  rw [charBefore?_succ, hc] at h
  rw [Nat.add_sub_cancel, hc, beq_iff_eq.mp h]

/-- What a search finds stands at a position of the stretch that may begin it. -/
theorem exists_of_mem_findAll {α : Type} {begins : Option Char → Bool}
    {recognise : Nat → Text → Option α} {before : Option Char} {position : Nat} {t : Text} {x : α}
    (h : x ∈ findAll begins recognise before position t) :
    ∃ i < t.length, begins (if i = 0 then before else t[i - 1]?) ∧
      recognise (position + i) (t.drop i) = some x := by
  induction t generalizing before position with
  | nil => simp [findAll] at h
  | cons c rest ih =>
    rw [findAll] at h
    rcases List.mem_append.mp h with hfound | hlater
    · split_ifs at hfound with hbegins
      · exact ⟨0, Nat.succ_pos _, by simpa using hbegins, by simpa using hfound⟩
      · simp at hfound
    · obtain ⟨i, hi, hbegins, hx⟩ := ih hlater
      refine ⟨i + 1, Nat.succ_lt_succ hi, ?_, ?_⟩
      · rcases i with _ | i
        · simpa using hbegins
        · simpa using hbegins
      · rw [List.drop_succ_cons, ← hx]
        congr 1
        omega

theorem exists_of_mem_findBetween {α : Type} {begins : Option Char → Bool}
    {recognise : Nat → Text → Option α} {t : Text} {start stop : Nat} {x : α}
    (h : x ∈ t.findBetween begins recognise start stop) :
    ∃ position, start ≤ position ∧ position < stop ∧ begins (t.charBefore? position) ∧
      recognise position (t.extract position stop) = some x := by
  obtain ⟨i, hi, hbegins, hx⟩ := exists_of_mem_findAll h
  simp only [List.extract_eq_take_drop, List.length_take, List.length_drop] at hi
  refine ⟨start + i, Nat.le_add_right _ _, by omega, ?_, ?_⟩
  · rcases i with _ | i
    · simpa using hbegins
    · rw [← Nat.add_assoc, charBefore?_succ]
      simpa [List.extract_eq_take_drop, List.getElem?_take, List.getElem?_drop,
        show i < stop - start by omega] using hbegins
  · rw [← hx]
    simp only [List.extract_eq_take_drop, List.drop_take, List.drop_drop]
    congr 2
    omega

end Text

end MemberOrder
