import Mathlib.Data.List.DropRight
import MemberOrder.Proofs.Source.Reading

/-!
Leading lines as an end of the stretch before a declaration. The lines of a stretch put together are
the stretch, and every line but the last is closed by a line feed, so leading lines start behind a
line feed or are all of a stretch that starts a line.
-/

set_option autoImplicit false

namespace MemberOrder.Source

/-- Does the stretch end a line, or hold nothing? -/
def EndsLine (stretch : List Glyph) : Prop :=
  stretch = [] ∨ (stretch.getLast?.map Glyph.char) = some '\n'

theorem flatten_linesOf (stretch : List Glyph) : (linesOf stretch).flatten = stretch := by
  fun_induction linesOf stretch <;> simp_all

theorem linesOf_ne_nil {line stretch : List Glyph} (h : line ∈ linesOf stretch) : line ≠ [] := by
  fun_induction linesOf stretch with
  | case1 => simp at h
  | case2 g rest hfeed ih =>
    rcases List.mem_cons.mp h with rfl | h
    · simp
    · exact ih h
  | case3 g rest hfeed hnone ih =>
    rw [List.mem_singleton.mp h]
    simp
  | case4 g rest hfeed first others hlines ih =>
    rcases List.mem_cons.mp h with rfl | h
    · simp
    · exact ih (hlines ▸ List.mem_cons_of_mem _ h)

theorem length_linesOf_pos (front : List Glyph) (g : Glyph) :
    0 < (linesOf (front ++ [g])).length := by
  refine List.length_pos_iff.mpr fun hnil ↦ ?_
  have hflat := flatten_linesOf (front ++ [g])
  rw [hnil] at hflat
  simp at hflat

/-- A line that another one follows is closed by a line feed. -/
theorem endsLine_of_linesOf_eq {stretch : List Glyph} {before after : List (List Glyph)}
    (h : linesOf stretch = before ++ after) (hafter : after ≠ []) : EndsLine before.flatten := by
  induction stretch generalizing before after with
  | nil =>
    rw [linesOf] at h
    exact absurd (List.append_eq_nil_iff.mp h.symm).2 hafter
  | cons g rest ih =>
    rw [linesOf] at h
    rcases before with _ | ⟨line, before⟩
    · exact Or.inl rfl
    · split_ifs at h with hfeed
      · obtain ⟨rfl, hrest⟩ := List.cons_eq_cons.mp h
        rcases ih hrest hafter with hnone | hfeeds
        · right
          simp [hnone, hfeed]
        · right
          rw [List.flatten_cons, List.getLast?_append]
          cases hlast : before.flatten.getLast? with
          | none => simp [hlast] at hfeeds
          | some last => simpa [hlast] using hfeeds
      · cases hlines : linesOf rest with
        | nil =>
          rw [hlines] at h
          obtain ⟨rfl, hrest⟩ := List.cons_eq_cons.mp h
          exact absurd (List.append_eq_nil_iff.mp hrest.symm).2 hafter
        | cons first others =>
          rw [hlines] at h
          obtain ⟨rfl, hrest⟩ := List.cons_eq_cons.mp h
          have hsplit : linesOf rest = (first :: before) ++ after := by
            rw [hlines, hrest]
            rfl
          have hne : first ≠ [] := linesOf_ne_nil (hlines ▸ List.mem_cons_self)
          rcases ih hsplit hafter with hnone | hfeeds
          · simp [hne] at hnone
          · right
            rw [List.flatten_cons, List.cons_append, ← List.flatten_cons]
            cases hflat : (first :: before).flatten with
            | nil => simp [hflat] at hfeeds
            | cons x xs => simpa [hflat] using hfeeds

theorem leadingIn_eq (wholeLine : Bool) (stretch : List Glyph) :
    leadingIn wholeLine stretch =
      (((linesOf stretch).drop (if wholeLine then 0 else 1)).rtakeWhile isLeadingLine).flatten := by
  cases wholeLine <;> rfl

/-- Leading lines are the last lines of the stretch, without its first one if that is not whole. -/
theorem exists_leadingIn_eq (wholeLine : Bool) (stretch : List Glyph) :
    ∃ k, (wholeLine = false → 1 ≤ k) ∧
      leadingIn wholeLine stretch = ((linesOf stretch).drop k).flatten := by
  obtain ⟨before, hbefore⟩ := List.rtakeWhile_suffix isLeadingLine
    ((linesOf stretch).drop (if wholeLine then 0 else 1))
  refine ⟨(if wholeLine then 0 else 1) + before.length, fun hpart ↦ by simp [hpart], ?_⟩
  rw [leadingIn_eq, ← List.drop_drop]
  nth_rewrite 2 [← hbefore]
  rw [List.drop_left]

/-- A stretch is what its leading lines do not take, which ends a line, and these. -/
theorem exists_append_leadingIn (wholeLine : Bool) (stretch : List Glyph) :
    ∃ before, stretch = before ++ leadingIn wholeLine stretch ∧
      (leadingIn wholeLine stretch ≠ [] → EndsLine before ∧ (before = [] → wholeLine = true)) := by
  obtain ⟨k, hk, hleading⟩ := exists_leadingIn_eq wholeLine stretch
  refine ⟨((linesOf stretch).take k).flatten, ?_, fun hne ↦ ⟨?_, fun hnone ↦ ?_⟩⟩
  · rw [hleading, ← List.flatten_append, List.take_append_drop, flatten_linesOf]
  · refine endsLine_of_linesOf_eq (List.take_append_drop k _).symm fun hdrop ↦ ?_
    rw [hdrop] at hleading
    exact hne hleading
  · by_contra hpart
    have hone : 1 ≤ k := hk (by simpa using hpart)
    cases hlines : linesOf stretch with
    | nil =>
      rw [hlines] at hleading
      exact hne (by simpa using hleading)
    | cons first others =>
      obtain ⟨k, rfl⟩ := Nat.exists_eq_add_of_le' hone
      rw [hlines, List.take_succ_cons, List.flatten_cons] at hnone
      exact linesOf_ne_nil (hlines ▸ List.mem_cons_self) (List.append_eq_nil_iff.mp hnone).1

theorem length_leadingIn_le (wholeLine : Bool) (stretch : List Glyph) :
    (leadingIn wholeLine stretch).length ≤ stretch.length := by
  obtain ⟨before, hstretch, -⟩ := exists_append_leadingIn wholeLine stretch
  have hlength := congrArg List.length hstretch
  rw [List.length_append] at hlength
  omega

/-- Leading lines reach back to the floor at most. -/
theorem length_leadingLines_le (src : Source) (floor start : Nat) :
    (src.leadingLines floor start).length ≤ start - floor := by
  unfold leadingLines
  simp only [List.length_map]
  refine (length_leadingIn_le _ _).trans ?_
  rw [List.extract_eq_take_drop, List.length_take]
  exact Nat.min_le_left _ _

theorem linesOf_append_feed (front : List Glyph) {g : Glyph} (hfeed : g.char = '\n')
    (rest : List Glyph) : linesOf (front ++ [g] ++ rest) = linesOf (front ++ [g]) ++ linesOf rest := by
  induction front with
  | nil => simp [linesOf, hfeed]
  | cons x front ih =>
    simp only [List.cons_append, linesOf] at ih ⊢
    rw [ih]
    split_ifs with hx
    · rfl
    · cases hlines : linesOf (front ++ [g]) with
      | nil =>
        have hflat := flatten_linesOf (front ++ [g])
        rw [hlines] at hflat
        simp at hflat
      | cons line others => rfl

/-- Behind a stretch that ends a line and has no leading lines, the leading lines are those of what
comes behind it. -/
theorem leadingIn_append {wholeLine : Bool} {front : List Glyph} {g : Glyph} (hfeed : g.char = '\n')
    (hnone : leadingIn wholeLine (front ++ [g]) = []) (rest : List Glyph) :
    leadingIn wholeLine (front ++ [g] ++ rest) = leadingIn true rest := by
  rw [leadingIn_eq] at hnone
  rw [leadingIn_eq, leadingIn_eq, linesOf_append_feed front hfeed]
  have hpos := length_linesOf_pos front g
  rw [List.drop_append_of_le_length (by split_ifs <;> omega)]
  have hstop : ((linesOf (front ++ [g])).drop (if wholeLine then 0 else 1)).rtakeWhile
      isLeadingLine = [] := by
    refine List.eq_nil_iff_forall_not_mem.mpr fun line hline ↦ ?_
    have hmem := (List.rtakeWhile_suffix isLeadingLine _).subset hline
    exact linesOf_ne_nil (List.mem_of_mem_drop hmem) (List.flatten_eq_nil_iff.mp hnone line hline)
  simp only [List.rtakeWhile, List.reverse_eq_nil_iff, List.reverse_append] at hstop ⊢
  rw [List.takeWhile_append, hstop, List.append_nil, if_pos trivial, List.drop_zero]
  split_ifs with hall
  · rw [(List.takeWhile_prefix _).eq_of_length hall]
  · rfl

end MemberOrder.Source
