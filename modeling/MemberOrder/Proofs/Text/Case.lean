import Mathlib.Tactic.SplitIfs
import MemberOrder.Order.Name

/-!
Case mappings and U+0000. No entry of a case table leads to U+0000, so that no text has it in its
case folded or case swapped form unless it has it already: a name that can be collated can be
collated in each of the forms by which names are compared.
-/

set_option autoImplicit false

namespace MemberOrder

namespace Text

/-- Is the code point one of a character other than U+0000? -/
def isProper (n : Nat) : Bool := decide (n ≠ 0) && decide n.isValidChar

theorem ofNat_ne_null {n : Nat} (h : isProper n = true) : Char.ofNat n ≠ '\x00' := by
  simp only [isProper, Bool.and_eq_true, decide_eq_true_eq] at h
  intro hnull
  have hcode : (Char.ofNat n).toNat = n := by
    rw [Char.ofNat, dif_pos h.2]
    rfl
  rw [hnull] at hcode
  exact h.1 hcode.symm

namespace ShiftRun

/-- Does the run move all its code points to characters other than U+0000? -/
def isProper (run : ShiftRun) : Bool :=
  decide (0 < run.first + run.shift) &&
    (decide (run.last + run.shift < 0xd800) ||
      (decide (0xdfff < run.first + run.shift) && decide (run.last + run.shift < 0x110000)))

theorem move_ne_null {run : ShiftRun} {n : Nat} (hrun : run.isProper = true)
    (hn : run.contains n = true) : run.move n ≠ '\x00' := by
  apply ofNat_ne_null
  simp only [isProper, contains, Bool.and_eq_true, Bool.or_eq_true, decide_eq_true_eq] at hrun hn
  simp only [Text.isProper, Nat.isValidChar, Bool.and_eq_true, decide_eq_true_eq]
  omega

end ShiftRun

theorem null_not_mem_mapCodePoint {runs : List ShiftRun} {sequences : List (Nat × List Nat)}
    (hruns : runs.all (·.isProper) = true) (hsequences : sequences.all (·.2.all isProper) = true)
    {c : Char} (hc : c ≠ '\x00') : '\x00' ∉ mapCodePoint runs sequences c := by
  unfold mapCodePoint
  cases hlookup : sequences.lookup c.toNat with
  | some codes =>
    obtain ⟨before, after, rfl, -⟩ := List.lookup_eq_some_iff.mp hlookup
    have hcodes := List.all_eq_true.mp hsequences (c.toNat, codes) (by simp)
    intro hnull
    obtain ⟨code, hcode, hmapped⟩ := List.mem_map.mp hnull
    exact ofNat_ne_null (List.all_eq_true.mp hcodes code hcode) hmapped
  | none =>
    cases hfind : runs.find? (·.contains c.toNat) with
    | some run =>
      have hproper := List.all_eq_true.mp hruns run (List.mem_of_find?_eq_some hfind)
      have hcontains : run.contains c.toNat = true := by simpa using List.find?_some hfind
      simpa using (run.move_ne_null hproper hcontains).symm
    | none => simpa using hc.symm

/-- The ASCII letters stay letters. -/
theorem ascii_ne_null {c : Char} (hascii : c.toNat < 128) (hc : c ≠ '\x00') :
    c.toLower ≠ '\x00' ∧ c.toUpper ≠ '\x00' := by
  have hall : ∀ n < 128, Char.ofNat n ≠ '\x00' →
      (Char.ofNat n).toLower ≠ '\x00' ∧ (Char.ofNat n).toUpper ≠ '\x00' := by
    decide +kernel
  have hcode := hall c.toNat hascii
  rw [Char.ofNat_toNat] at hcode
  exact hcode hc

section Forms

variable {c : Char} (hc : c ≠ '\x00')

include hc

theorem null_not_mem_foldChar : '\x00' ∉ foldChar c := by
  unfold foldChar
  split_ifs with hascii
  · simpa using (ascii_ne_null hascii hc).1.symm
  · exact null_not_mem_mapCodePoint (by decide +kernel) (by decide +kernel) hc

theorem null_not_mem_upperChar : '\x00' ∉ upperChar c := by
  unfold upperChar
  split_ifs with hascii
  · simpa using (ascii_ne_null hascii hc).2.symm
  · exact null_not_mem_mapCodePoint (by decide +kernel) (by decide +kernel) hc

theorem null_not_mem_lowerBetween (before after : Text) :
    '\x00' ∉ lowerBetween before c after := by
  unfold lowerBetween
  split_ifs with hascii hsigma hfinal
  · simpa using (ascii_ne_null hascii hc).1.symm
  · decide
  · decide
  · exact null_not_mem_mapCodePoint (by decide +kernel) (by decide +kernel) hc

theorem null_not_mem_swapBetween (before after : Text) : '\x00' ∉ swapBetween before c after := by
  unfold swapBetween
  simp only
  split_ifs with htitle hsame
  · simpa using hc.symm
  · exact null_not_mem_upperChar hc
  · exact null_not_mem_lowerBetween hc before after

end Forms

theorem exists_of_mem_mapInContext {f : Text → Char → Text → Text} {before t : Text} {d : Char}
    (h : d ∈ mapInContext f before t) : ∃ front, ∃ c ∈ t, ∃ back, d ∈ f front c back := by
  induction t generalizing before with
  | nil => simp [mapInContext] at h
  | cons c rest ih =>
    rw [mapInContext] at h
    rcases List.mem_append.mp h with hfirst | hlater
    · exact ⟨before, c, List.mem_cons_self, rest, hfirst⟩
    · obtain ⟨front, other, hother, back, hd⟩ := ih hlater
      exact ⟨front, other, List.mem_cons_of_mem _ hother, back, hd⟩

end Text

namespace Name

theorem collates_iff {name : Text} : collates name = true ↔ '\x00' ∉ name := by
  simp [collates]

/-- Both forms of a name that a comparison looks at can be collated, if the name can. -/
theorem collates_forms {name : Text} (h : collates name = true) :
    collates (Text.foldCase name) = true ∧ collates (Text.swapCase name) = true := by
  simp only [collates_iff] at h ⊢
  constructor
  · intro hnull
    obtain ⟨c, hc, hfold⟩ := List.mem_flatMap.mp hnull
    exact Text.null_not_mem_foldChar (ne_of_mem_of_not_mem hc h) hfold
  · intro hnull
    obtain ⟨before, c, hc, after, hswap⟩ := Text.exists_of_mem_mapInContext hnull
    exact Text.null_not_mem_swapBetween (ne_of_mem_of_not_mem hc h) before after hswap

end Name

end MemberOrder
