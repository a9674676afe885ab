import Mathlib.Data.Nat.Init
import Mathlib.Order.Bounds.Defs
import MemberOrder.Proofs.Source.Nesting
import MemberOrder.Proofs.Source.Query

/-!
Delimiters by their numbers. A delimiter closes where, counted from it on, as many are closed as are
opened for the first time. Until then more are opened than closed, so that of two delimiters the one
that opens inside the other closes inside it, and the depth of braces is one before the brace that
closes and zero behind it.
-/

set_option autoImplicit false

namespace MemberOrder.Source

open Glyph (code)

variable {o c : Char}

/-! ### Stretches -/

section Stretch

/-- With `depth` open before it, the stretch closes for the first time all that is open with what
stands at `i`. -/
structure Exhausts (o c : Char) (depth : Nat) (stretch : List Glyph) (i : Nat) : Prop where
  inside : i < stretch.length
  balance_eq : depth + (stretch.take (i + 1)).count (code o) = (stretch.take (i + 1)).count (code c)
  balance_pos : ∀ k ≤ i, (stretch.take k).count (code c) < depth + (stretch.take k).count (code o)

variable {depth inner i : Nat} {g : Glyph} {rest : List Glyph}

theorem exhausts_cons_zero_iff (hne : o ≠ c) (hpos : 0 < depth) :
    Exhausts o c depth (g :: rest) 0 ↔ depth = 1 ∧ g = code c := by
  have hcodes : code o ≠ code c := by simpa [code] using hne
  constructor
  · rintro ⟨-, hbalance, -⟩
    simp only [Nat.zero_add, List.take_succ_cons, List.take_zero, List.count_singleton,
      beq_iff_eq] at hbalance
    by_cases hc : g = code c
    · rw [if_pos hc, if_neg (hc ▸ hcodes.symm)] at hbalance
      exact ⟨hbalance, hc⟩
    · rw [if_neg hc] at hbalance
      omega
  · rintro ⟨rfl, rfl⟩
    refine ⟨Nat.succ_pos _, by simp [hcodes.symm], fun k hk ↦ ?_⟩
    rw [Nat.le_zero.mp hk]
    simp

/-- The first glyph of a stretch changes what is open before the others. -/
theorem exhausts_cons_succ_iff (hpos : 0 < depth)
    (hinner : inner + (if g = code c then 1 else 0) = depth + if g = code o then 1 else 0) :
    Exhausts o c depth (g :: rest) (i + 1) ↔ Exhausts o c inner rest i := by
  have hcount (k : Nat) (x : Char) : ((g :: rest).take (k + 1)).count (code x) =
      (rest.take k).count (code x) + if g = code x then 1 else 0 := by
    rw [List.take_succ_cons, List.count_cons]
    simp only [beq_iff_eq]
  constructor
  · rintro ⟨hinside, hbalance, hmore⟩
    refine ⟨Nat.lt_of_succ_lt_succ hinside, ?_, fun k hk ↦ ?_⟩
    · rw [hcount, hcount] at hbalance
      omega
    · have hk := hmore (k + 1) (Nat.succ_le_succ hk)
      rw [hcount, hcount] at hk
      omega
  · rintro ⟨hinside, hbalance, hmore⟩
    refine ⟨Nat.succ_lt_succ hinside, ?_, fun k hk ↦ ?_⟩
    · rw [hcount, hcount]
      omega
    · cases k with
      | zero => simpa using hpos
      | succ k =>
        have hk := hmore k (Nat.le_of_succ_le_succ hk)
        rw [hcount, hcount]
        omega

theorem closeIn_eq_some_iff (hne : o ≠ c) {stretch : List Glyph} (hpos : 0 < depth) :
    closeIn [o] [c] depth stretch = some i ↔ Exhausts o c depth stretch i := by
  have hcodes : code o ≠ code c := by simpa [code] using hne
  induction stretch generalizing depth i with
  | nil =>
    refine iff_of_false ?_ fun h ↦ absurd h.inside (Nat.not_lt_zero _)
    rw [closeIn]
    exact (Option.some_ne_none i).symm
  | cons g rest ih =>
    have hstep {inner : Nat} (hpos' : 0 < inner) (hzero : ¬ (depth = 1 ∧ g = code c))
        (hinner : inner + (if g = code c then 1 else 0) = depth + if g = code o then 1 else 0) :
        (closeIn [o] [c] inner rest).map (· + 1) = some i ↔ Exhausts o c depth (g :: rest) i := by
      cases i with
      | zero => simp [exhausts_cons_zero_iff hne hpos, hzero]
      | succ i => simp [exhausts_cons_succ_iff hpos hinner, ih hpos']
    rw [closeIn]
    simp only [isCode_and_char_eq_iff]
    split_ifs with ho hc hdepth
    · exact hstep (Nat.succ_pos _) (fun h ↦ hcodes (ho.symm.trans h.2)) (by simp [ho, hcodes])
    · cases i with
      | zero => simpa [exhausts_cons_zero_iff hne hpos, hc] using by omega
      | succ i =>
        -- The stretch has closed all that is open before `i` is reached.
        refine ⟨by simp, fun h ↦ ?_⟩
        have hone := h.balance_pos 1 (by omega)
        simp [hc, hcodes.symm] at hone
        omega
    · exact hstep (by omega) (by omega) (by simp [hc, hcodes.symm]; omega)
    · exact hstep hpos (fun h ↦ hc h.2) (by simp [ho, hc])

end Stretch

/-! ### Sources -/

variable {src : Source}

/-- How often the character stands as code from `start` up to `stop`. -/
def codeCount (src : Source) (c : Char) (start stop : Nat) : Nat :=
  (src.glyphs.extract start stop).count (code c)

theorem codeCount_add (src : Source) (c : Char) {start middle stop : Nat} (h : start ≤ middle)
    (h' : middle ≤ stop) :
    src.codeCount c start middle + src.codeCount c middle stop = src.codeCount c start stop := by
  rw [codeCount, codeCount, codeCount, ← List.count_append, extract_append_extract _ h h']

theorem codeCount_succ {start stop : Nat} {g : Glyph} (h : start ≤ stop)
    (hg : src.glyphs[stop]? = some g) (c : Char) :
    src.codeCount c start (stop + 1) = src.codeCount c start stop + if g = code c then 1 else 0 := by
  rw [codeCount, codeCount, extract_eq_concat hg h, List.count_append, List.count_singleton]
  simp only [beq_iff_eq]

/-- The delimiter at `start` is closed at `close`: up to there, and not before, as many are closed as
are opened. -/
structure Closes (src : Source) (o c : Char) (start close : Nat) : Prop where
  opens : src.glyphs[start]? = some (code o)
  start_le : start ≤ close
  inside : close < src.length
  count_eq : src.codeCount o start (close + 1) = src.codeCount c start (close + 1)
  count_lt : ∀ k, start < k → k ≤ close → src.codeCount c start k < src.codeCount o start k

theorem closeOf?_of_opens {start : Nat} (h : src.glyphs[start]? = some (code o)) (closing : Text) :
    src.closeOf? [o] closing start =
      (closeIn [o] closing 1 (src.glyphs.drop (start + 1))).map (start + 1 + ·) := by
  obtain ⟨hlt, hglyph⟩ := List.getElem?_eq_some_iff.mp h
  rw [closeOf?, List.drop_eq_getElem_cons hlt, hglyph]
  exact if_pos ((isCode_and_char_eq_iff _ o).mpr rfl)

theorem Closes.start_lt (hne : o ≠ c) {start close : Nat} (h : src.Closes o c start close) :
    start < close := by
  refine Nat.lt_of_le_of_ne h.start_le ?_
  rintro rfl
  have hcodes : code o ≠ code c := by simpa [code] using hne
  have heq := h.count_eq
  rw [codeCount_succ (Nat.le_refl _) h.opens, codeCount_succ (Nat.le_refl _) h.opens, if_pos rfl,
    if_neg hcodes] at heq
  simp [codeCount] at heq

/-- Behind a delimiter it alone is open. -/
theorem closes_iff_exhausts (hne : o ≠ c) {start i : Nat} (h : src.glyphs[start]? = some (code o)) :
    src.Closes o c start (start + 1 + i) ↔ Exhausts o c 1 (src.glyphs.drop (start + 1)) i := by
  have hcodes : code o ≠ code c := by simpa [code] using hne
  have hcount (k : Nat) (x : Char) : src.codeCount x start (start + 1 + k) =
      ((src.glyphs.drop (start + 1)).take k).count (code x) + if code o = code x then 1 else 0 := by
    rw [codeCount, extract_eq_cons h (by omega), List.count_cons, List.extract_eq_take_drop,
      Nat.add_sub_cancel_left]
    simp only [beq_iff_eq]
  have hopening (k : Nat) := hcount k o
  have hclosing (k : Nat) := hcount k c
  simp only [if_true, if_neg hcodes] at hopening hclosing
  constructor
  · rintro ⟨-, -, hinside, heq, hlt⟩
    refine ⟨?_, ?_, fun k hk ↦ ?_⟩
    · rw [List.length_drop]
      exact Nat.lt_sub_of_add_lt (by rwa [Nat.add_comm i])
    · rw [Nat.add_assoc _ i, hopening, hclosing] at heq
      omega
    · have hk := hlt (start + 1 + k) (by omega) (by omega)
      rw [hopening, hclosing] at hk
      omega
  · rintro ⟨hinside, heq, hlt⟩
    rw [List.length_drop] at hinside
    refine ⟨h, by omega, Nat.add_comm i _ ▸ Nat.add_lt_of_lt_sub hinside, ?_, fun k hk hle ↦ ?_⟩
    · rw [Nat.add_assoc _ i, hopening, hclosing]
      omega
    · obtain ⟨k, rfl⟩ := Nat.exists_eq_add_of_le hk
      have hk := hlt k (by omega)
      rw [hopening, hclosing]
      omega

theorem closeOf?_eq_some_iff (hne : o ≠ c) {start close : Nat} :
    src.closeOf? [o] [c] start = some close ↔ src.Closes o c start close := by
  constructor
  · intro h
    have hopens := getElem?_opening_of_closeOf? h
    rw [closeOf?_of_opens hopens] at h
    obtain ⟨i, hi, rfl⟩ := Option.map_eq_some_iff.mp h
    exact (closes_iff_exhausts hne hopens).mpr ((closeIn_eq_some_iff hne Nat.one_pos).mp hi)
  · intro h
    obtain ⟨i, rfl⟩ := Nat.exists_eq_add_of_le (h.start_lt hne)
    rw [closeOf?_of_opens h.opens, (closeIn_eq_some_iff hne Nat.one_pos).mpr
      ((closes_iff_exhausts hne h.opens).mp h), Option.map_some]

/-- The numbers of what is opened and closed change by one at a time, so where they are not equal yet
more is opened. -/
theorem codeCount_lt_of_forall_ne (hne : o ≠ c) {start close : Nat}
    (h : src.glyphs[start]? = some (code o)) (hclose : close < src.length)
    (hnone : ∀ j, start ≤ j → j < close →
      src.codeCount o start (j + 1) ≠ src.codeCount c start (j + 1)) {k : Nat} (hk : start < k)
    (hle : k ≤ close) : src.codeCount c start k < src.codeCount o start k := by
  have hcodes : code o ≠ code c := by simpa [code] using hne
  induction k, hk using Nat.le_induction with
  | base =>
    rw [codeCount_succ (Nat.le_refl _) h, codeCount_succ (Nat.le_refl _) h, if_pos rfl,
      if_neg hcodes]
    simp [codeCount]
  | succ k hk ih =>
    have hlt := ih (by omega)
    have hdiffers := hnone k (by omega) (by omega)
    obtain ⟨g, hg⟩ : ∃ g, src.glyphs[k]? = some g :=
      ⟨_, List.getElem?_eq_getElem (Nat.lt_of_lt_of_le hle (Nat.le_of_lt hclose))⟩
    rw [codeCount_succ (by omega) hg, codeCount_succ (by omega) hg] at hdiffers ⊢
    by_cases hc : g = code c
    · rw [if_pos hc, if_neg (hc ▸ hcodes.symm)] at hdiffers ⊢
      omega
    · rw [if_neg hc]
      omega

theorem closes_iff_isLeast (hne : o ≠ c) {start close : Nat} :
    src.Closes o c start close ↔ src.glyphs[start]? = some (code o) ∧
      IsLeast {j | start ≤ j ∧ j < src.length ∧
        src.codeCount o start (j + 1) = src.codeCount c start (j + 1)} close := by
  constructor
  · intro h
    refine ⟨h.opens, ⟨h.start_le, h.inside, h.count_eq⟩, fun j hj ↦ ?_⟩
    obtain ⟨hstart, -, heq⟩ := hj
    by_contra hbefore
    have hlt := h.count_lt (j + 1) (by omega) (by omega)
    omega
  · rintro ⟨hopens, ⟨hstart, hinside, heq⟩, hleast⟩
    refine ⟨hopens, hstart, hinside, heq, fun k hk hle ↦ ?_⟩
    refine codeCount_lt_of_forall_ne hne hopens hinside (fun j hj hlt hsame ↦ ?_) hk hle
    exact absurd (hleast ⟨hj, Nat.lt_trans hlt hinside, hsame⟩) (Nat.not_le.mpr hlt)

namespace Closes

variable {start close start' close' : Nat}

/-- A delimiter is closed by its closing character. -/
theorem glyph_eq (hne : o ≠ c) (h : src.Closes o c start close) :
    src.glyphs[close]? = some (code c) :=
  getElem?_of_closeOf? ((closeOf?_eq_some_iff hne).mpr h)

/-- Before what closes a delimiter it alone is open. -/
theorem count_eq_add_one (hne : o ≠ c) (h : src.Closes o c start close) :
    src.codeCount o start close = src.codeCount c start close + 1 := by
  have hcodes : code o ≠ code c := by simpa [code] using hne
  have heq := h.count_eq
  rwa [codeCount_succ h.start_le (h.glyph_eq hne), codeCount_succ h.start_le (h.glyph_eq hne),
    if_pos rfl, if_neg hcodes.symm] at heq

/-- A delimiter that opens inside another one closes inside it. -/
theorem close_le (h : src.Closes o c start close) (h' : src.Closes o c start' close')
    (hstart : start ≤ start') (hclose : start' ≤ close) : close' ≤ close := by
  by_contra hbehind
  have hinner := h'.count_lt (close + 1) (by omega) (by omega)
  have hopening := src.codeCount_add o hstart (show start' ≤ close + 1 by omega)
  have hclosing := src.codeCount_add c hstart (show start' ≤ close + 1 by omega)
  have heq := h.count_eq
  have houter : src.codeCount c start start' ≤ src.codeCount o start start' := by
    rcases Nat.eq_or_lt_of_le hstart with rfl | hlt
    · simp [codeCount]
    · exact Nat.le_of_lt (h.count_lt start' hlt hclose)
  omega

end Closes

theorem braceBalance_eq (stretch : List Glyph) :
    braceBalance stretch = (stretch.count (code '\x7b') : Int) - stretch.count (code '\x7d') := by
  induction stretch with
  | nil => rfl
  | cons g rest ih =>
    have hbraces : code '\x7b' ≠ code '\x7d' := by decide
    rw [braceBalance_cons, ih, Glyph.braceWeight, List.count_cons, List.count_cons]
    simp only [isCodeChar_iff, beq_iff_eq]
    by_cases hopen : g = code '\x7b'
    · rw [if_pos hopen, if_pos hopen, if_neg (hopen ▸ hbraces)]
      omega
    · rw [if_neg hopen, if_neg hopen]
      split_ifs <;> omega

theorem braceDepth_eq (src : Source) (start stop : Nat) : src.braceDepth start stop =
    (src.codeCount '\x7b' start stop : Int) - src.codeCount '\x7d' start stop :=
  braceBalance_eq _

/-! ### Queries -/

theorem matchingClose?_eq_some_iff {opening closing : Text} {start : Int} {j : Nat} :
    src.matchingClose? opening closing start = some j ↔
      ∃ i : Nat, start = i ∧ src.closeOf? opening closing i = some j := by
  constructor
  · intro h
    unfold matchingClose? at h
    split_ifs at h with hstart
    exact ⟨start.toNat, (Int.toNat_of_nonneg hstart).symm, h⟩
  · rintro ⟨i, rfl, h⟩
    rwa [matchingClose?_eq]

/-- A delimiter is closed at a position exactly if it stands in the source as code and the position is
the first up to which as many are closed as are opened. What stands there is the closing character,
and before it more are opened than closed. The depth of braces is one before the brace that closes
and zero behind it, and of two delimiters that are closed one lies inside the other or they are
apart. -/
theorem matchingClose?_isLeast (src : Source) {o c : Char} (hne : o ≠ c) :
    (∀ (start : Int) (j : Nat), src.matchingClose? [o] [c] start = some j ↔
      0 ≤ start ∧ start < src.length ∧ src.glyphs[start.toNat]? = some (code o) ∧
        IsLeast {j : Nat | start.toNat ≤ j ∧ j < src.length ∧
          src.codeCount o start.toNat (j + 1) = src.codeCount c start.toNat (j + 1)} j) ∧
      (∀ (start : Int) (j : Nat), src.matchingClose? [o] [c] start = some j →
        src.glyphs[j]? = some (code c) ∧ ∀ k, start.toNat < k → k ≤ j →
          src.codeCount c start.toNat k < src.codeCount o start.toNat k) ∧
      (∀ (start : Int) (j : Nat), src.matchingClose? ['\x7b'] ['\x7d'] start = some j →
        src.depthBetween start j = .ok 1 ∧ src.depthBetween start (j + 1) = .ok 0) ∧
      ∀ (start start' : Int) (j j' : Nat), src.matchingClose? [o] [c] start = some j →
        src.matchingClose? [o] [c] start' = some j' →
          j < start' ∨ j' < start ∨ (start ≤ start' ∧ j' ≤ j) ∨ (start' ≤ start ∧ j ≤ j') := by
  have hcloses {o c : Char} (hne : o ≠ c) {start : Int} {j : Nat}
      (h : src.matchingClose? [o] [c] start = some j) :
      ∃ i : Nat, start = i ∧ src.Closes o c i j := by
    obtain ⟨i, hi, h⟩ := matchingClose?_eq_some_iff.mp h
    exact ⟨i, hi, (closeOf?_eq_some_iff hne).mp h⟩
  refine ⟨fun start j ↦ ⟨fun h ↦ ?_, ?_⟩, fun start j h ↦ ?_, fun start j h ↦ ?_,
    fun start start' j j' h h' ↦ ?_⟩
  · obtain ⟨i, rfl, hi⟩ := hcloses hne h
    have hinside : i < src.length := Nat.lt_of_le_of_lt hi.start_le hi.inside
    exact ⟨Int.natCast_nonneg i, by omega, (closes_iff_isLeast hne).mp hi⟩
  · rintro ⟨hstart, -, hopens, hleast⟩
    have h : src.Closes o c start.toNat j := (closes_iff_isLeast hne).mpr ⟨hopens, hleast⟩
    exact matchingClose?_eq_some_iff.mpr
      ⟨start.toNat, (Int.toNat_of_nonneg hstart).symm, (closeOf?_eq_some_iff hne).mpr h⟩
  · obtain ⟨i, rfl, hi⟩ := hcloses hne h
    exact ⟨hi.glyph_eq hne, hi.count_lt⟩
  · obtain ⟨i, rfl, hi⟩ := hcloses (by decide) h
    have hbefore := hi.count_eq_add_one (by decide)
    have hbehind := hi.count_eq
    have hinside : j + 1 ≤ src.length := hi.inside
    rw [depthBetween_eq (Nat.le_of_lt hi.inside), show (j : Int) + 1 = (j + 1 : Nat) from rfl,
      depthBetween_eq hinside, braceDepth_eq, braceDepth_eq, Except.ok.injEq, Except.ok.injEq]
    omega
  · obtain ⟨i, rfl, hi⟩ := hcloses hne h
    obtain ⟨i', rfl, hi'⟩ := hcloses hne h'
    have hinner := hi.close_le hi'
    have houter := hi'.close_le hi
    omega

/-- Braces, one pair of them inside the other, with a brace in a literal and one in a comment. -/
def mutedBraces : Source := ofText "\x7b \"\x7d\" \x7b\x7d /*\x7d*/ \x7d".toList

/-- The first brace closes with the last one, and the pair inside it by itself. -/
theorem mutedBraces_matched :
    '\x7b' ≠ '\x7d' ∧ mutedBraces.matchingClose? ['\x7b'] ['\x7d'] 0 = some 15 ∧
      mutedBraces.matchingClose? ['\x7b'] ['\x7d'] 6 = some 7 ∧
      IsLeast {j : Nat | 0 ≤ j ∧ j < mutedBraces.length ∧
        mutedBraces.codeCount '\x7b' 0 (j + 1) = mutedBraces.codeCount '\x7d' 0 (j + 1)} 15 ∧
      mutedBraces.depthBetween 0 15 = .ok 1 ∧ mutedBraces.depthBetween 0 16 = .ok 0 := by
  have hbraces : '\x7b' ≠ '\x7d' := by decide
  have houter : mutedBraces.matchingClose? ['\x7b'] ['\x7d'] 0 = some 15 := by decide +kernel
  have hinner : mutedBraces.matchingClose? ['\x7b'] ['\x7d'] 6 = some 7 := by decide +kernel
  obtain ⟨hiff, -, hdepth, -⟩ := matchingClose?_isLeast mutedBraces hbraces
  exact ⟨hbraces, houter, hinner, ((hiff 0 15).mp houter).2.2.2, hdepth 0 15 houter⟩

end MemberOrder.Source
