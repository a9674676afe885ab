import MemberOrder.Proofs.Layout.Record
import MemberOrder.Proofs.Order.Overloads
import MemberOrder.Proofs.Source.Tokens

/-!
The calls of a method. A name is called where it stands in code, continues no other name and has,
but for white space, a parenthesis behind it. The calls of a method are found by asking this at each
of its positions. A search that goes on only behind the parenthesis of what it has found, and that
takes the owner of a call along with its name, finds the same ones: nothing is called between the
name of a call and its parenthesis.
-/

set_option autoImplicit false

namespace MemberOrder

/-! ### Names before a parenthesis -/

namespace Text

namespace NamedAt

variable {t name : Text} {fills : Char → Bool} {i paren : Nat} (h : t.NamedAt fills name i paren)

include h

theorem getElem?_name {k : Nat} (hle : i ≤ k) (hlt : k < i + name.length) :
    ∃ c, t[k]? = some c ∧ isNamePart c = true := by
  have hk : k - i < name.length := by omega
  refine ⟨name[k - i], ?_, h.isName.isNamePart _ (List.getElem_mem hk)⟩
  have hat := getElem?_extract t (show k - i < i + name.length - i by omega)
  rwa [h.name_eq, List.getElem?_eq_getElem hk, Nat.add_sub_cancel' hle, eq_comm] at hat

theorem getElem?_gap {k : Nat} (hinside : paren ≤ t.length) (hle : i + name.length ≤ k)
    (hlt : k < paren) : ∃ c, t[k]? = some c ∧ fills c = true := by
  obtain ⟨c, hc⟩ : ∃ c, t[k]? = some c := ⟨_, List.getElem?_eq_getElem (by omega)⟩
  have hat := getElem?_extract t (show k - (i + name.length) < paren - (i + name.length) by omega)
  rw [Nat.add_sub_cancel' hle, hc] at hat
  exact ⟨c, hc, h.gap c (List.mem_of_getElem? hat)⟩

end NamedAt

/-- A name that white space parts from a parenthesis goes no further. -/
theorem NamedAt.maximal {t name : Text} {i paren : Nat} (h : t.NamedAt isBlank name i paren)
    (hopens : t[paren]? = some '(') : ∀ c ∈ t[i + name.length]?, isNamePart c = false := by
  intro c hc
  rcases Nat.eq_or_lt_of_le h.name_le with heq | hlt
  · rw [Option.mem_def, heq, hopens, Option.some.injEq] at hc
    rw [← hc]
    decide +kernel
  · obtain ⟨d, hd, hblank⟩ :=
      h.getElem?_gap (List.getElem?_eq_some_iff.mp hopens).1.le (Nat.le_refl _) hlt
    rw [Option.mem_def, hd, Option.some.injEq] at hc
    exact hc ▸ isNamePart_of_isBlank hblank

/-- The name that stands at `i`, taken as long as it goes, continues no other one, and behind it and
white space a parenthesis opens. -/
structure CallsAt (t name : Text) (i paren : Nat) : Prop where
  fresh : ∀ c ∈ t.charBefore? i, isNamePart c = false
  named : t.NamedAt isBlank name i paren
  maximal : ∀ c ∈ t[i + name.length]?, isNamePart c = false
  opens : t[paren]? = some '('

namespace CallsAt

variable {t name other : Text} {i k paren paren' : Nat}

theorem paren_lt (h : t.CallsAt name i paren) : paren < t.length :=
  (List.getElem?_eq_some_iff.mp h.opens).1

theorem getElem?_start (h : t.CallsAt name i paren) :
    i < paren ∧ ∃ c, t[i]? = some c ∧ isNamePart c = true := by
  have hpos : 0 < name.length := by
    obtain ⟨c, rest, rfl, -⟩ := h.named.isName
    exact Nat.succ_pos _
  have hle := h.named.name_le
  exact ⟨by omega, h.named.getElem?_name (Nat.le_refl i) (by omega)⟩

/-- From the name up to the parenthesis there stand parts of the name, and then white space. -/
theorem getElem?_between (h : t.CallsAt name i paren) (hle : i ≤ k) (hlt : k < paren) :
    ∃ c, t[k]? = some c ∧ (isNamePart c = true ∨ i + name.length ≤ k ∧ isBlank c = true) := by
  rcases Nat.lt_or_ge k (i + name.length) with hname | hgap
  · obtain ⟨c, hc, hpart⟩ := h.named.getElem?_name hle hname
    exact ⟨c, hc, Or.inl hpart⟩
  · obtain ⟨c, hc, hblank⟩ := h.named.getElem?_gap h.paren_lt.le hgap hlt
    exact ⟨c, hc, Or.inr ⟨hgap, hblank⟩⟩

theorem length_le (h : t.CallsAt name i paren) (h' : t.CallsAt other i paren') :
    other.length ≤ name.length := by
  by_contra! hlonger
  obtain ⟨c, hc, hpart⟩ := h'.named.getElem?_name (Nat.le_add_right i name.length) (by omega)
  rw [h.maximal c hc] at hpart
  cases hpart

/-- At a position one name is called at most. -/
theorem name_eq (h : t.CallsAt name i paren) (h' : t.CallsAt other i paren') : name = other := by
  have hlength : name.length = other.length := le_antisymm (h'.length_le h) (h.length_le h')
  rw [← h.named.name_eq, hlength, h'.named.name_eq]

/-- Between the start of a call and its parenthesis no other call starts. -/
theorem not_callsAt (h : t.CallsAt name i paren) (hlt : i < k) (hle : k ≤ paren) :
    ¬ t.CallsAt other k paren' := by
  intro h'
  obtain ⟨-, c, hc, hpart⟩ := h'.getElem?_start
  obtain ⟨j, rfl⟩ := Nat.exists_eq_add_one_of_ne_zero (Nat.ne_zero_of_lt hlt)
  obtain ⟨d, hd, hname | ⟨hbehind, -⟩⟩ :=
    h.getElem?_between (Nat.le_of_lt_succ hlt) (Nat.lt_of_succ_le hle)
  · -- Inside the name, the call would continue it.
    rw [h'.fresh d hd] at hname
    cases hname
  · -- Behind the name there is only white space and the parenthesis.
    rcases Nat.eq_or_lt_of_le hle with rfl | hinside
    · rw [h.opens, Option.some.injEq] at hc
      rw [← hc] at hpart
      exact absurd hpart (by decide +kernel)
    · obtain ⟨e, he, hblank⟩ :=
        h.named.getElem?_gap h.paren_lt.le (Nat.le_succ_of_le hbehind) hinside
      rw [he, Option.some.injEq] at hc
      rw [← hc, isNamePart_of_isBlank hblank] at hpart
      cases hpart

end CallsAt

/-- A name is called in a stretch exactly if it is read there as long as it goes and white space
parts it from a parenthesis. -/
theorem exists_callsAt_iff {t name : Text} {i stop : Nat} (hi : i ≤ stop) (hstop : stop ≤ t.length) :
    (∃ paren < stop, t.CallsAt name i paren) ↔ (∀ c ∈ t.charBefore? i, isNamePart c = false) ∧
      identifier? (t.extract i stop) = some name ∧
      (((t.extract i stop).drop name.length).dropWhile isBlank).head? = some '(' := by
  constructor
  · rintro ⟨paren, hparen, h⟩
    have hname := h.named.name_le
    have hsplit : t.extract i stop = name ++ t.extract (i + name.length) stop := by
      rw [← extract_append_extract t (Nat.le_add_right i name.length) (by omega), h.named.name_eq]
    have hrest : t.extract (i + name.length) stop =
        t.extract (i + name.length) paren ++ '(' :: t.extract (paren + 1) stop := by
      rw [← extract_append_extract t hname hparen.le, extract_eq_cons h.opens hparen]
    refine ⟨h.fresh, identifier?_eq_some_iff.mpr ⟨_, hsplit, h.named.isName, ?_⟩, ?_⟩
    · intro c hc
      refine h.maximal c ?_
      rwa [List.head?_eq_getElem?, getElem?_extract t (by omega)] at hc
    · rw [hsplit, List.drop_left, hrest, List.dropWhile_append_of_pos h.named.gap,
        List.dropWhile_cons_of_neg (by decide)]
      rfl
  · rintro ⟨hfresh, hname, hopens⟩
    obtain ⟨rest, hsplit, hisName, -⟩ := identifier?_eq_some_iff.mp hname
    rw [hsplit, List.drop_left] at hopens
    obtain ⟨others, hothers⟩ := List.head?_eq_some_iff.mp hopens
    have hrest : rest = rest.takeWhile isBlank ++ '(' :: others := by
      rw [← hothers, List.takeWhile_append_dropWhile]
    set gap := rest.takeWhile isBlank
    have hdrop : t.drop i = name ++ (gap ++ '(' :: (others ++ t.drop stop)) := by
      rw [← List.take_append_drop (stop - i) (t.drop i), drop_drop_sub t hi,
        ← List.extract_eq_take_drop, hsplit, hrest]
      simp
    have hlength := congrArg List.length hsplit
    rw [length_extract t hi hstop, hrest] at hlength
    simp only [List.length_append, List.length_cons] at hlength
    have hnamed : t.NamedAt isBlank name i (i + name.length + gap.length) :=
      NamedAt.of_drop hdrop hisName fun c hc ↦ List.mem_takeWhile_imp hc
    have hparen : t[i + name.length + gap.length]? = some '(' := by
      rw [Nat.add_assoc, ← List.getElem?_drop, hdrop, ← List.append_assoc, ← List.length_append,
        List.getElem?_append_right (Nat.le_refl _), Nat.sub_self, List.getElem?_cons_zero]
    exact ⟨_, by omega, hfresh, hnamed, hnamed.maximal hparen, hparen⟩

/-! ### Searching for calls -/

/-- The owner that a call may name before what is called. -/
def owner : Text := "this.".toList

/-- A call is written from `p` on, with its owner or without: the name at `i` and behind white space
the parenthesis. What is written continues no name. -/
structure WritesCall (t : Text) (p : Nat) (name : Text) (i paren : Nat) : Prop where
  fresh : ∀ c ∈ t.charBefore? p, isNamePart c = false
  owned : i = p ∨ i = p + owner.length ∧ t.extract p i = owner
  named : t.NamedAt isBlank name i paren
  opens : t[paren]? = some '('

/-- A search from `p` on for calls that end before `stop` finds these names at their positions: each
time the first that is written, and the next one behind its parenthesis. -/
inductive Searches (t : Text) (stop : Nat) : Nat → List (Nat × Text) → Prop
  | none {p : Nat} (h : ∀ q name i paren, p ≤ q → paren < stop → ¬ t.WritesCall q name i paren) :
    Searches t stop p []
  | next {p q i paren : Nat} {name : Text} {found : List (Nat × Text)} (hle : p ≤ q)
    (h : t.WritesCall q name i paren) (hparen : paren < stop)
    (hfirst : ∀ k name i paren, p ≤ k → k < q → paren < stop → ¬ t.WritesCall k name i paren)
    (hrest : Searches t stop (paren + 1) found) : Searches t stop p ((i, name) :: found)

theorem CallsAt.writesCall {t name : Text} {i paren : Nat} (h : t.CallsAt name i paren) :
    t.WritesCall i name i paren :=
  ⟨h.fresh, Or.inl rfl, h.named, h.opens⟩

namespace WritesCall

variable {t name other : Text} {p i k paren paren' : Nat}

/-- Of the owner of a call no character is a parenthesis, and one is neither part of a name nor
white space. -/
theorem getElem?_owner (h : t.WritesCall p name i paren) (hp : p ≠ i) :
    t[i - 1]? = some '.' ∧ ∀ k, p ≤ k → k < i → t[k]? ≠ some '(' := by
  obtain ⟨hi, howner⟩ := h.owned.resolve_left (Ne.symm hp)
  have hat {k : Nat} (hk : k < owner.length) : t[p + k]? = owner[k]? := by
    rw [← howner, getElem?_extract t (by omega)]
  refine ⟨?_, fun k hle hlt hparen ↦ ?_⟩
  · rw [hi, show p + owner.length - 1 = p + 4 from rfl, hat (by decide)]
    rfl
  · obtain ⟨n, rfl⟩ := Nat.exists_eq_add_of_le hle
    have hmem : '(' ∈ owner := List.mem_of_getElem? ((hat (by omega)).symm.trans hparen)
    exact absurd hmem (by decide)

/-- What is written calls the name. -/
theorem callsAt (h : t.WritesCall p name i paren) : t.CallsAt name i paren := by
  refine ⟨?_, h.named, h.named.maximal h.opens, h.opens⟩
  by_cases hp : p = i
  · exact hp ▸ h.fresh
  · obtain ⟨hdot, -⟩ := h.getElem?_owner hp
    cases i with
    | zero => simp [charBefore?]
    | succ i =>
      intro c hc
      rw [charBefore?_succ, Option.mem_def, ← Nat.add_sub_cancel (n := i) (m := 1), hdot,
        Option.some.injEq] at hc
      rw [← hc]
      decide +kernel

theorem le (h : t.WritesCall p name i paren) : p ≤ i := by
  rcases h.owned with rfl | ⟨rfl, -⟩
  · exact Nat.le_refl i
  · exact Nat.le_add_right _ _

/-- Nothing is called from the owner of a call on before its name. -/
theorem not_callsAt (h : t.WritesCall p name i paren) (hle : p ≤ k) (hlt : k < i) :
    ¬ t.CallsAt other k paren' := by
  intro h'
  obtain ⟨hdot, hparens⟩ := h.getElem?_owner (Nat.ne_of_lt (hle.trans_lt hlt))
  obtain ⟨hk, -⟩ := h'.getElem?_start
  rcases Nat.lt_or_ge paren' i with hbefore | hbehind
  · exact hparens paren' (hle.trans hk.le) hbefore h'.opens
  · obtain ⟨c, hc, hfits⟩ := h'.getElem?_between (k := i - 1) (by omega) (by omega)
    rw [hdot, Option.some.injEq] at hc
    rw [← hc] at hfits
    exact absurd hfits (by simp [show isNamePart '.' = false by decide +kernel,
      show isBlank '.' = false by decide])

end WritesCall

/-- Every search comes to an end. -/
theorem exists_searches (t : Text) (stop p : Nat) : ∃ found, t.Searches stop p found := by
  induction hn : stop - p using Nat.strong_induction_on generalizing p with
  | _ n ih =>
    by_cases hnone : ∃ q, p ≤ q ∧ ∃ name i paren, paren < stop ∧ t.WritesCall q name i paren
    · classical
      obtain ⟨hle, name, i, paren, hparen, h⟩ := Nat.find_spec hnone
      have hbehind := h.callsAt.getElem?_start.1
      have hstart := h.le
      obtain ⟨found, hfound⟩ := ih (stop - (paren + 1)) (by omega) (paren + 1) rfl
      refine ⟨_, .next hle h hparen (fun k name i paren hk hlt hparen h ↦ ?_) hfound⟩
      exact Nat.find_min hnone hlt ⟨hk, name, i, paren, hparen, h⟩
    · refine ⟨[], .none fun q name i paren hq hparen h ↦ ?_⟩
      exact hnone ⟨q, hq, name, i, paren, hparen, h⟩

end Text

/-- What comes first in a list that is read off ascending positions is read off at a position before
all those at which the other is. -/
theorem exists_lt_of_idxOf_lt {α : Type} [BEq α] [LawfulBEq α] {f : Nat → Option α}
    {positions : List Nat} (hascend : positions.Pairwise (· < ·)) {x y : α}
    (h : (positions.filterMap f).idxOf x < (positions.filterMap f).idxOf y) :
    ∃ i ∈ positions, f i = some x ∧ ∀ j ∈ positions, f j = some y → i < j := by
  induction positions with
  | nil => simp at h
  | cons i rest ih =>
    obtain ⟨hlt, hrest⟩ := List.pairwise_cons.mp hascend
    cases hfi : f i with
    | none =>
      rw [List.filterMap_cons_none hfi] at h
      obtain ⟨k, hk, hx, hlater⟩ := ih hrest h
      refine ⟨k, List.mem_cons_of_mem _ hk, hx, List.forall_mem_cons.mpr ⟨fun hy ↦ ?_, hlater⟩⟩
      rw [hfi] at hy
      cases hy
    | some a =>
      rw [List.filterMap_cons_some hfi, idxOf_cons_lt_iff] at h
      obtain ⟨hne, rfl | h⟩ := h
      · refine ⟨i, List.mem_cons_self, hfi, List.forall_mem_cons.mpr ⟨fun hy ↦ ?_, ?_⟩⟩
        · rw [hfi, Option.some.injEq] at hy
          exact absurd hy hne
        · exact fun j hj _ ↦ hlt j hj
      · obtain ⟨k, hk, hx, hlater⟩ := ih hrest h
        refine ⟨k, List.mem_cons_of_mem _ hk, hx, List.forall_mem_cons.mpr ⟨fun hy ↦ ?_, hlater⟩⟩
        rw [hfi, Option.some.injEq] at hy
        exact absurd hy hne

/-! ### Calls in code -/

namespace Source

/-- Between `start` and `stop` the name is called in code. -/
structure CallIn (src : Source) (start stop : Nat) (name : Text) (i paren : Nat) : Prop where
  start_le : start ≤ i
  isCode : src.isCodeAt i = true
  calls : src.text.CallsAt name i paren
  paren_lt : paren < stop

/-- The characters that may open a comment or a literal. -/
def muteStarts : List Char := ['/', '"', '\'']

theorem MuteKind.first?_of_not_mem {c : Char} (t : Text) (h : c ∉ muteStarts) :
    MuteKind.first? (c :: t) = none := by
  simp only [muteStarts, List.mem_cons, List.not_mem_nil, or_false, not_or] at h
  obtain ⟨hslash, hquote, hsingle⟩ := h
  simp [MuteKind.first?, MuteKind.opening, Ne.symm hslash, Ne.symm hquote, Ne.symm hsingle]

variable {src : Source}

/-- Behind code that begins no sign there is code, unless it opens a comment or literal. -/
theorem isCodeAt_succ {k : Nat} {c d : Char} (h : src.isCodeAt k = true) (hc : src.text[k]? = some c)
    (hsign : c ∉ signStarts) (hd : src.text[k + 1]? = some d) (hmute : d ∉ muteStarts) :
    src.isCodeAt (k + 1) = true := by
  obtain ⟨hlt, rfl⟩ := List.getElem?_eq_some_iff.mp hd
  obtain ⟨e, hglyph⟩ := exists_code_of_isCodeAt h
  obtain rfl : e = c := by
    rw [src.getElem?_text, hglyph, Option.map_some, Option.some.injEq] at hc
    exact hc
  have hglyphs := src.glyphs_eq_append (src.endsSign_take_succ hc hsign)
  rw [src.modeAfter_take_succ hglyph hsign, List.drop_eq_getElem_cons hlt,
    MuteKind.scan_plain (MuteKind.first?_of_not_mem _ hmute)] at hglyphs
  have hat : src.glyphs[k + 1]? = some (Glyph.code src.text[k + 1]) := by
    have hlength : (scan .code (src.text.take (k + 1))).length = k + 1 := by
      rw [length_scan, List.length_take, Nat.min_eq_left hlt.le]
    rw [hglyphs, List.getElem?_append_right hlength.le, hlength, Nat.sub_self,
      List.getElem?_cons_zero]
  simp [isCodeAt, hat, Glyph.code]

theorem not_mem_signs {c : Char} (h : Text.isNamePart c = true ∨ Text.isBlank c = true) :
    c ∉ signStarts ∧ c ∉ muteStarts := by
  have hall : (signStarts ++ muteStarts).all
      (fun c ↦ !Text.isNamePart c && !Text.isBlank c) = true := by decide +kernel
  rw [← not_or, ← List.mem_append]
  intro hmem
  have hneither := List.all_eq_true.mp hall c hmem
  rcases h with h | h <;> simp [h] at hneither

/-- Code goes on from the name of a call up to its parenthesis. -/
theorem isCodeAt_of_callsAt {name : Text} {i paren : Nat} (h : src.text.CallsAt name i paren)
    (hcode : src.isCodeAt i = true) : src.isCodeAt paren = true := by
  have hplain {k : Nat} (hle : i ≤ k) (hlt : k < paren) :
      ∃ c, src.text[k]? = some c ∧ c ∉ signStarts ∧ c ∉ muteStarts := by
    obtain ⟨c, hc, hfits⟩ := h.getElem?_between hle hlt
    exact ⟨c, hc, not_mem_signs (hfits.imp_right And.right)⟩
  have hall (n : Nat) : i + n ≤ paren → src.isCodeAt (i + n) = true := by
    induction n with
    | zero => exact fun _ ↦ hcode
    | succ n ih =>
      intro hle
      obtain ⟨c, hc, hsign, -⟩ := hplain (Nat.le_add_right i n) (by omega)
      obtain ⟨d, hd, hmute⟩ : ∃ d, src.text[i + n + 1]? = some d ∧ d ∉ muteStarts := by
        rcases Nat.eq_or_lt_of_le hle with heq | hlt
        · exact ⟨'(', heq ▸ h.opens, by decide⟩
        · obtain ⟨d, hd, -, hmute⟩ := hplain (k := i + n + 1) (by omega) hlt
          exact ⟨d, hd, hmute⟩
      exact isCodeAt_succ (ih (by omega)) hc hsign hd hmute
  have hle := h.getElem?_start.1.le
  rw [← Nat.add_sub_cancel' hle]
  exact hall (paren - i) (Nat.add_sub_cancel' hle).le

/-! ### Asking at each position -/

/-- The name that is called at `i`, if its parenthesis opens before `stop`. -/
def callBefore? (src : Source) (stop i : Nat) : Option Text :=
  callAt? (src.text.charBefore? i) (src.glyphs.extract i stop)

/-- The names that are called from `start` up to `middle`, with parentheses before `stop`. -/
def callsUpTo (src : Source) (stop start middle : Nat) : List Text :=
  (List.range' start (middle - start)).filterMap (src.callBefore? stop)

theorem callBefore?_eq_some_iff {name : Text} {stop i : Nat} (hi : i < stop)
    (hstop : stop ≤ src.text.length) :
    src.callBefore? stop i = some name ↔ name ∉ statementWords ∧ src.isCodeAt i = true ∧
      ∃ paren < stop, src.text.CallsAt name i paren := by
  have hhead : (src.glyphs.extract i stop).head?.any (·.isCode) = src.isCodeAt i := by
    rw [List.head?_eq_getElem?, getElem?_extract _ (by omega), Nat.add_zero, isCodeAt]
    cases src.glyphs[i]? <;> rfl
  have hfresh : (src.text.charBefore? i).any Text.isNamePart = false ↔
      ∀ c ∈ src.text.charBefore? i, Text.isNamePart c = false := by
    cases src.text.charBefore? i <;> simp
  rw [Text.exists_callsAt_iff hi.le hstop, ← hfresh, callBefore?, callAt?]
  simp only [hhead, src.map_char_extract]
  split_ifs with hskip
  · rw [Bool.or_eq_true, Bool.not_eq_true'] at hskip
    refine iff_of_false (by simp) ?_
    rintro ⟨-, hcode, hbefore, -⟩
    rcases hskip with hskip | hskip
    · rw [hskip] at hbefore
      cases hbefore
    · rw [hskip] at hcode
      cases hcode
  · rw [Bool.or_eq_true, not_or, Bool.not_eq_true, Bool.not_eq_true', Bool.not_eq_false] at hskip
    have hword : (!statementWords.contains name) = true ↔ name ∉ statementWords := by simp
    rw [Option.filter_eq_some_iff, Bool.and_eq_true, beq_iff_eq, hword]
    constructor
    · rintro ⟨hname, hopens, hfree⟩
      exact ⟨hfree, hskip.2, hskip.1, hname, hopens⟩
    · rintro ⟨hfree, -, -, hname, hopens⟩
      exact ⟨hname, hopens, hfree⟩

theorem callIn_iff_callBefore? {start stop i : Nat} {name : Text} (hstop : stop ≤ src.text.length) :
    (name ∉ statementWords ∧ ∃ paren, src.CallIn start stop name i paren) ↔
      i ∈ List.range' start (stop - start) ∧ src.callBefore? stop i = some name := by
  rw [List.mem_range'_1]
  constructor
  · rintro ⟨hfree, paren, hstart, hcode, hcalls, hparen⟩
    have hlt := hcalls.getElem?_start.1
    exact ⟨by omega, (callBefore?_eq_some_iff (hlt.trans hparen) hstop).mpr
      ⟨hfree, hcode, paren, hparen, hcalls⟩⟩
  · rintro ⟨⟨hstart, hlt⟩, hname⟩
    obtain ⟨hfree, hcode, paren, hparen, hcalls⟩ :=
      (callBefore?_eq_some_iff (by omega) hstop).mp hname
    exact ⟨hfree, paren, hstart, hcode, hcalls, hparen⟩

theorem callsIn_eq_callsUpTo {start stop : Nat} (hle : start ≤ stop)
    (hstop : stop ≤ src.text.length) :
    callsIn (src.text.charBefore? start) (src.glyphs.extract start stop) =
      src.callsUpTo stop start stop := by
  induction hn : stop - start generalizing start with
  | zero =>
    obtain rfl : start = stop := by omega
    simp [callsUpTo, callsIn]
  | succ n ih =>
    obtain ⟨g, hg⟩ : ∃ g, src.glyphs[start]? = some g :=
      ⟨_, List.getElem?_eq_getElem (by rw [src.length_glyphs]; omega)⟩
    have hlater := ih (show start + 1 ≤ stop by omega) (by omega)
    rw [Text.charBefore?_succ, src.getElem?_text, hg, Option.map_some] at hlater
    rw [callsUpTo, hn, List.range'_succ, List.filterMap_cons, callBefore?,
      extract_eq_cons hg (by omega), callsIn, hlater, callsUpTo,
      show stop - (start + 1) = n by omega]
    cases callAt? (src.text.charBefore? start) (g :: src.glyphs.extract (start + 1) stop) <;> rfl

theorem calledNames_eq {start stop : Nat} (hle : start ≤ stop) (hstop : stop ≤ src.text.length) :
    src.calledNames start stop = (src.callsUpTo stop start stop).eraseDups := by
  rw [← callsIn_eq_callsUpTo hle hstop]
  cases start with
  | zero => rfl
  | succ i =>
    rw [Text.charBefore?_succ, src.getElem?_text]
    rfl

theorem mem_callsUpTo_iff {start stop : Nat} {name : Text} (hstop : stop ≤ src.text.length) :
    name ∈ src.callsUpTo stop start stop ↔
      name ∉ statementWords ∧ ∃ i paren, src.CallIn start stop name i paren := by
  rw [callsUpTo, List.mem_filterMap]
  constructor
  · rintro ⟨i, hi⟩
    obtain ⟨hfree, paren, hcall⟩ := (callIn_iff_callBefore? hstop).mpr hi
    exact ⟨hfree, i, paren, hcall⟩
  · rintro ⟨hfree, i, paren, hcall⟩
    exact ⟨i, (callIn_iff_callBefore? hstop).mp ⟨hfree, paren, hcall⟩⟩

/-- Names called one after the other are first called in this order. -/
theorem pairwise_first {start stop : Nat} (hstop : stop ≤ src.text.length) :
    (src.callsUpTo stop start stop).eraseDups.Pairwise fun first second ↦
      ∃ i paren, src.CallIn start stop first i paren ∧
        ∀ j paren, src.CallIn start stop second j paren → i < j := by
  refine (pairwise_idxOf_eraseDups _).imp_of_mem fun {first second} _ hsecond hlt ↦ ?_
  obtain ⟨i, hi, hfirst, hlater⟩ := exists_lt_of_idxOf_lt List.pairwise_lt_range' hlt
  obtain ⟨-, paren, hcall⟩ := (callIn_iff_callBefore? hstop).mpr ⟨hi, hfirst⟩
  obtain ⟨hfree, -⟩ := (mem_callsUpTo_iff hstop).mp (List.mem_eraseDups.mp hsecond)
  refine ⟨i, paren, hcall, fun j paren hother ↦ ?_⟩
  obtain ⟨hj, hname⟩ := (callIn_iff_callBefore? hstop).mp ⟨hfree, paren, hother⟩
  exact hlater j hj hname

/-! ### Asking behind what was found -/

/-- The names among what a search has found that stand in code and open no statement. -/
def keptCalls (src : Source) (found : List (Nat × Text)) : List Text :=
  found.filterMap fun (i, name) ↦
    if src.isCodeAt i && !statementWords.contains name then some name else none

theorem callsUpTo_append (src : Source) {stop start middle last : Nat} (hle : start ≤ middle)
    (hlast : middle ≤ last) :
    src.callsUpTo stop start last =
      src.callsUpTo stop start middle ++ src.callsUpTo stop middle last := by
  simp only [callsUpTo]
  rw [← List.filterMap_append, ← Nat.sub_add_sub_cancel hlast hle, Nat.add_comm (last - middle),
    ← List.range'_append_1, Nat.add_sub_cancel' hle]

theorem callsUpTo_eq_nil {stop start last : Nat} (hlast : last ≤ stop)
    (hstop : stop ≤ src.text.length)
    (h : ∀ k name paren, start ≤ k → k < last → paren < stop → ¬ src.text.CallsAt name k paren) :
    src.callsUpTo stop start last = [] := by
  rw [callsUpTo, List.filterMap_eq_nil_iff]
  intro k hk
  rw [List.mem_range'_1] at hk
  refine Option.eq_none_iff_forall_ne_some.mpr fun name hname ↦ ?_
  obtain ⟨-, -, paren, hparen, hcalls⟩ := (callBefore?_eq_some_iff (by omega) hstop).mp hname
  exact h k name paren hk.1 (by omega) hparen hcalls

theorem callsUpTo_succ {stop i paren : Nat} {name : Text} (hparen : paren < stop)
    (hstop : stop ≤ src.text.length) (h : src.text.CallsAt name i paren) :
    src.callsUpTo stop i (i + 1) = src.keptCalls [(i, name)] := by
  have hi : i < stop := h.getElem?_start.1.trans hparen
  have hasked : src.callBefore? stop i =
      if src.isCodeAt i && !statementWords.contains name then some name else none := by
    ext other
    rw [callBefore?_eq_some_iff hi hstop]
    constructor
    · rintro ⟨hfree, hcode, _, -, hother⟩
      obtain rfl := h.name_eq hother
      simp [hcode, hfree]
    · split_ifs with hkept
      · rintro ⟨⟩
        obtain ⟨hcode, hfree⟩ := Bool.and_eq_true_iff.mp hkept
        exact ⟨by simpa using hfree, hcode, paren, hparen, h⟩
      · rintro ⟨⟩
  rw [callsUpTo, Nat.add_sub_cancel_left, List.range'_one, List.filterMap_cons, hasked]
  rfl

/-- A search finds what is called at any position. -/
theorem keptCalls_of_searches {stop p : Nat} {found : List (Nat × Text)} (hp : p ≤ stop)
    (hstop : stop ≤ src.text.length) (h : src.text.Searches stop p found) :
    src.keptCalls found = src.callsUpTo stop p stop := by
  induction h with
  | none hnone =>
    refine (callsUpTo_eq_nil (Nat.le_refl stop) hstop fun k name paren hk _ hparen hcalls ↦ ?_).symm
    exact hnone k name k paren hk hparen hcalls.writesCall
  | @next p q i paren name found hle hwrites hparen hfirst hrest ih =>
    have hcalls := hwrites.callsAt
    have hi := hcalls.getElem?_start.1
    have hq := hwrites.le
    have hbefore : src.callsUpTo stop p i = [] := by
      refine callsUpTo_eq_nil (by omega) hstop fun k other paren' hk hlt hparen' hother ↦ ?_
      rcases Nat.lt_or_ge k q with hearly | howner
      · exact hfirst k other k paren' hk hearly hparen' hother.writesCall
      · exact hwrites.not_callsAt howner hlt hother
    have hbehind : src.callsUpTo stop (i + 1) (paren + 1) = [] :=
      callsUpTo_eq_nil (by omega) hstop fun k other paren' hk hlt _ ↦
        hcalls.not_callsAt hk (Nat.le_of_lt_succ hlt)
    calc src.keptCalls ((i, name) :: found)
        = src.keptCalls [(i, name)] ++ src.keptCalls found := by
          exact List.filterMap_append (l := [(i, name)])
      _ = src.callsUpTo stop i (i + 1) ++ src.callsUpTo stop (paren + 1) stop := by
          rw [ih hparen, callsUpTo_succ hparen hstop hcalls]
      _ = src.callsUpTo stop p stop := by
          rw [src.callsUpTo_append (show p ≤ i by omega) (show i ≤ stop by omega), hbefore,
            src.callsUpTo_append (Nat.le_succ i) (show i + 1 ≤ stop by omega),
            src.callsUpTo_append (show i + 1 ≤ paren + 1 by omega) hparen, hbehind,
            List.nil_append, List.nil_append]

end Source

namespace Reading

open Source

/-- The calls of a method with a body are, each once and in the order in which they first occur, the
names that open no statement and that are called in code between the start and the end of the
method; and the parenthesis of such a call is code too. They are also what a search through the
method finds that goes on behind each parenthesis it has come to. -/
theorem calls_eq_calledIn {text : Text} {layout : Layout} (h : ofText text = .complete layout)
    {m : Method} (hm : m ∈ layout.methods) (hbody : m.body ≠ []) :
    m.calls.Nodup ∧
      (∀ name, name ∈ m.calls ↔ name ∉ statementWords ∧
        ∃ i paren, (Source.ofText text).CallIn m.start m.stop name i paren) ∧
      (m.calls.Pairwise fun first second ↦
        ∃ i paren, (Source.ofText text).CallIn m.start m.stop first i paren ∧
          ∀ j paren, (Source.ofText text).CallIn m.start m.stop second j paren → i < j) ∧
      (∀ name i paren, (Source.ofText text).CallIn m.start m.stop name i paren →
        (Source.ofText text).isCodeAt paren = true) ∧
      (∃ found, text.Searches m.stop m.start found) ∧
      ∀ found, text.Searches m.stop m.start found →
        m.calls = ((Source.ofText text).keptCalls found).eraseDups := by
  have hplaced := (tiles_of_complete h).placed_of_mem hm
  have hclose := (closeOf?_bounds (ofSource_eq_complete h).2.1).2
  have hstop : m.stop ≤ (Source.ofText text).text.length := hplaced.stop_le.trans hclose.le
  have hcalls : m.calls =
      ((Source.ofText text).callsUpTo m.stop m.start m.stop).eraseDups := by
    rw [← calledNames_eq hplaced.start_lt.le hstop]
    obtain ⟨head, -, previous, place, ending, inner, -, -, rfl⟩ := exists_head_of_mem_methods h hm
    exact if_neg (mt List.isEmpty_iff.mp hbody)
  rw [hcalls]
  refine ⟨nodup_eraseDups _, fun name ↦ ?_, pairwise_first hstop, ?_, ?_, ?_⟩
  · rw [List.mem_eraseDups, mem_callsUpTo_iff hstop]
  · intro name i paren hcall
    exact isCodeAt_of_callsAt hcall.calls hcall.isCode
  · exact Text.exists_searches text m.stop m.start
  · intro found hfound
    rw [keptCalls_of_searches hplaced.start_lt.le hstop hfound]

/-- A method with a call of its owner over two lines, one inside another, one of another class, and
what looks like calls in a comment, in a literal and before a statement. -/
def callingMethodSource : Text :=
  ("class C \x7b\n  void f() \x7b\n    if (g(this.h\n      (1))) x.k(\"p()\"); // q()\n" ++
    "    g();\n  \x7d\n\x7d\n").toList

/-- Its calls are itself, as it is declared, and the three names that are called, once each. -/
theorem callingMethodSource_calls :
    ∃ layout, ofText callingMethodSource = .complete layout ∧ ∃ m ∈ layout.methods, m.body ≠ [] ∧
      m.calls = ["f", "g", "h", "k"].map String.toList ∧
      ∃ found, callingMethodSource.Searches m.stop m.start found ∧
        ((Source.ofText callingMethodSource).keptCalls found).eraseDups =
          ["f", "g", "h", "k"].map String.toList := by
  have hsome : (ofText callingMethodSource).layout?.any fun layout ↦ layout.methods.any fun m ↦
      !m.body.isEmpty && m.calls == ["f", "g", "h", "k"].map String.toList := by
    decide +kernel
  obtain ⟨layout, h, hmethods⟩ := exists_complete_of_any hsome
  obtain ⟨m, hm, hfound⟩ := List.any_eq_true.mp hmethods
  obtain ⟨hbody, hcalls⟩ := Bool.and_eq_true_iff.mp hfound
  have hne : m.body ≠ [] := by simpa using hbody
  obtain ⟨-, -, -, -, ⟨found, hsearch⟩, hall⟩ := calls_eq_calledIn h hm hne
  have hnames := beq_iff_eq.mp hcalls
  exact ⟨layout, h, m, hm, hne, hnames, found, hsearch, (hall found hsearch).symm.trans hnames⟩

end Reading

end MemberOrder
