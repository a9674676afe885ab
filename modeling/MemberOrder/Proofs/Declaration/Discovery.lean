import Mathlib.Algebra.Group.Nat.Even
import MemberOrder.Proofs.Declaration.Locality
import MemberOrder.Proofs.Layout.Walk

/-!
Which class a source declares first. A search for headers takes them as they come, also in comments
and literals, and never two that share characters. Two headers share characters only where the name
of the one is the keyword of the other, so a header is passed over exactly if an odd number of
keywords stands directly before it. Of the class headers in code that are not passed over, the first
declares the class.
-/

set_option autoImplicit false

namespace MemberOrder

/-! ### Identifiers -/

namespace Text

/-- The code points of white space. -/
def blankCodePoints : List Nat :=
  List.range' 9 5 ++ List.range' 28 5 ++ [0x85, 0xa0, 0x1680] ++ List.range' 0x2000 11 ++
    [0x2028, 0x2029, 0x202f, 0x205f, 0x3000]

theorem isNamePart_of_isBlank {c : Char} (h : isBlank c = true) : isNamePart c = false := by
  have hall : ∀ n ∈ blankCodePoints, isNamePart (Char.ofNat n) = false := by decide +kernel
  have hmem : c.toNat ∈ blankCodePoints := by
    simp only [isBlank] at h
    simp only [blankCodePoints, List.mem_append, List.mem_range'_1, List.mem_cons,
      List.not_mem_nil, or_false]
    split_ifs at h with hascii
    · simp only [Bool.or_eq_true, Bool.and_eq_true, decide_eq_true_eq] at h
      omega
    · simp only [Bool.or_eq_true, Bool.and_eq_true, decide_eq_true_eq, beq_iff_eq] at h
      omega
  have hc := hall _ hmem
  rwa [Char.ofNat_toNat] at hc

theorem isNamePart_of_isNameStart {c : Char} (h : isNameStart c = true) : isNamePart c = true := by
  simp only [isNameStart, Bool.or_eq_true, beq_iff_eq] at h
  rcases h with (halpha | rfl) | rfl
  · have hascii : c.toNat < 128 := by
      have hletter : c.val ≤ 90 ∨ c.val ≤ 122 := by
        rcases Bool.or_eq_true_iff.mp halpha with hupper | hlower
        · exact Or.inl (of_decide_eq_true hupper).2
        · exact Or.inr (of_decide_eq_true (Bool.and_eq_true_iff.mp hlower).2)
      rw [UInt32.le_iff_toNat_le, UInt32.le_iff_toNat_le] at hletter
      change c.toNat ≤ 90 ∨ c.toNat ≤ 122 at hletter
      omega
    simp [isNamePart, isWordChar, isAlphanumeric, hascii, Char.isAlphanum, halpha]
  · decide
  · decide

/-- An identifier: a letter of ASCII, an underscore or a dollar sign, and what continues it. -/
def IsName (name : Text) : Prop :=
  ∃ c rest, name = c :: rest ∧ isNameStart c = true ∧ ∀ d ∈ rest, isNamePart d = true

theorem identifier?_eq_some_iff {t name : Text} : identifier? t = some name ↔
    ∃ rest, t = name ++ rest ∧ IsName name ∧ ∀ c ∈ rest.head?, isNamePart c = false := by
  constructor
  · intro h
    cases t with
    | nil => cases h
    | cons c t =>
      rw [identifier?] at h
      split_ifs at h with hstart
      cases h
      refine ⟨t.dropWhile isNamePart, ?_, ⟨c, _, rfl, hstart, fun d hd ↦ ?_⟩, fun d hd ↦ ?_⟩
      · rw [List.cons_append, List.takeWhile_append_dropWhile]
      · exact List.mem_takeWhile_imp hd
      · have hstop := List.head?_dropWhile_not isNamePart t
        rw [Option.mem_def.mp hd] at hstop
        simpa using hstop
  · rintro ⟨rest, rfl, ⟨c, others, rfl, hstart, hothers⟩, hrest⟩
    have hnone : rest.takeWhile isNamePart = [] := by
      cases rest with
      | nil => rfl
      | cons d rest => rw [List.takeWhile_cons_of_neg (by simp [hrest d rfl])]
    rw [List.cons_append, identifier?, if_pos hstart, List.takeWhile_append_of_pos hothers, hnone,
      List.append_nil]

theorem isBlank_of_isNameStart {c : Char} (h : isNameStart c = true) : isBlank c = false := by
  by_contra hblank
  rw [Bool.not_eq_false] at hblank
  exact Bool.false_ne_true
    ((isNamePart_of_isBlank hblank).symm.trans (isNamePart_of_isNameStart h))

/-- White space before a name ends where the name begins. -/
theorem takeWhile_isBlank_append {gap name : Text} (hgap : ∀ c ∈ gap, isBlank c = true)
    (hname : IsName name) (rest : Text) : (gap ++ (name ++ rest)).takeWhile isBlank = gap := by
  obtain ⟨c, others, rfl, hstart, -⟩ := hname
  rw [List.takeWhile_append_of_pos hgap, List.cons_append,
    List.takeWhile_cons_of_neg (by simp [isBlank_of_isNameStart hstart]), List.append_nil]

theorem IsName.isNamePart {name : Text} (h : IsName name) : ∀ c ∈ name, isNamePart c = true := by
  obtain ⟨c, others, rfl, hstart, hothers⟩ := h
  exact List.forall_mem_cons.mpr ⟨isNamePart_of_isNameStart hstart, hothers⟩

/-- What begins at the position continues no name and no qualified name. -/
def FreshAt (t : Text) (position : Nat) : Prop :=
  ∀ i, i + 1 = position → ∀ c ∈ t[i]?, isWordChar c = false ∧ c ≠ '$' ∧ c ≠ '.'

theorem FreshAt.isNamePart_eq_false {t : Text} {i : Nat} {c : Char} (h : FreshAt t (i + 1))
    (hc : t[i]? = some c) : isNamePart c = false := by
  obtain ⟨hword, hdollar, -⟩ := h i rfl c hc
  simp [isNamePart, hword, hdollar]

/-- A search finds all that it can recognise. -/
theorem mem_findAll {α : Type} {begins : Option Char → Bool} {recognise : Nat → Text → Option α}
    {before : Option Char} {position i : Nat} {t : Text} {x : α} (hi : i < t.length)
    (hbegins : begins (if i = 0 then before else t[i - 1]?) = true)
    (hx : recognise (position + i) (t.drop i) = some x) :
    x ∈ findAll begins recognise before position t := by
  induction t generalizing before position i with
  | nil => exact absurd hi (Nat.not_lt_zero _)
  | cons c rest ih =>
    rw [findAll, List.mem_append]
    cases i with
    | zero =>
      left
      rw [if_pos rfl] at hbegins
      rw [if_pos hbegins, Option.mem_toList]
      exact hx
    | succ i =>
      refine Or.inr (ih (Nat.lt_of_succ_lt_succ hi) ?_ ?_)
      · cases i with
        | zero => simpa using hbegins
        | succ i => simpa using hbegins
      · rwa [Nat.add_assoc, Nat.add_comm 1]

end Text

/-! ### Headers -/

namespace TypeHeader

/-- The header is written at the beginning of the text: its keyword, white space and its name, which
goes on as long as it can. -/
def Begins (header : TypeHeader) (t : Text) : Prop :=
  ∃ gap rest, t = header.kind.keyword ++ (gap ++ (header.name ++ rest)) ∧
    gap ≠ [] ∧ (∀ c ∈ gap, Text.isBlank c = true) ∧ Text.IsName header.name ∧
    (∀ c ∈ rest.head?, Text.isNamePart c = false) ∧
    header.stop = header.start + header.kind.keyword.length + gap.length + header.name.length

/-- The header stands in the text, and continues no name and no qualified name. -/
structure StandsIn (t : Text) (header : TypeHeader) : Prop where
  fresh : Text.FreshAt t header.start
  begins : header.Begins (t.drop header.start)

theorem ofKind?_eq_some_iff {kind : TypeKind} {position : Nat} {t : Text} {header : TypeHeader} :
    ofKind? kind position t = some header ↔
      header.kind = kind ∧ header.start = position ∧ header.Begins t := by
  constructor
  · intro h
    unfold ofKind? at h
    split_ifs at h with hkeyword
    simp only at h
    split_ifs at h with hgap
    obtain ⟨name, hname, rfl⟩ := Option.map_eq_some_iff.mp h
    obtain ⟨rest, rfl⟩ := List.isPrefixOf_iff_prefix.mp hkeyword
    rw [List.drop_left] at hgap
    rw [List.drop_left, drop_length_takeWhile] at hname
    obtain ⟨others, hrest, hidentifier, hothers⟩ := Text.identifier?_eq_some_iff.mp hname
    refine ⟨rfl, rfl, rest.takeWhile Text.isBlank, others, ?_, ?_, ?_, hidentifier, hothers, ?_⟩
    · simp only
      rw [← hrest, List.takeWhile_append_dropWhile]
    · simpa using hgap
    · exact fun c hc ↦ List.mem_takeWhile_imp hc
    · simp only [List.drop_left]
  · obtain ⟨kind', name, start, stop⟩ := header
    rintro ⟨rfl, rfl, gap, rest, rfl, hgap, hblanks, hname, hrest, hstop⟩
    simp only at hname hrest hstop
    have hfound : Text.identifier? (name ++ rest) = some name :=
      Text.identifier?_eq_some_iff.mpr ⟨rest, rfl, hname, hrest⟩
    unfold ofKind?
    rw [if_pos (List.isPrefixOf_iff_prefix.mpr (List.prefix_append _ _))]
    simp only [List.drop_left, Text.takeWhile_isBlank_append hblanks hname, hfound]
    rw [if_neg (by simpa using hgap), Option.map_some, hstop]

/-- The letter that a keyword begins with. -/
def initial : TypeKind → Char
  | .classType => 'c'
  | .interfaceType => 'i'
  | .enumType => 'e'

theorem isBlank_initial (kind : TypeKind) : Text.isBlank (initial kind) = false := by
  cases kind <;> decide

theorem Begins.head?_eq {header : TypeHeader} {t : Text} (h : header.Begins t) :
    t.head? = some (initial header.kind) := by
  obtain ⟨gap, rest, rfl, -⟩ := h
  cases header.kind <;> rfl

/-- Keywords differ from the first letter on. -/
theorem Begins.kind_eq {header other : TypeHeader} {t : Text} (h : header.Begins t)
    (h' : other.Begins t) : header.kind = other.kind := by
  have hinitial := h.head?_eq
  rw [h'.head?_eq, Option.some.injEq] at hinitial
  revert hinitial
  cases header.kind <;> cases other.kind <;> decide

theorem at?_eq_some_iff {position : Nat} {t : Text} {header : TypeHeader} :
    at? position t = some header ↔ header.start = position ∧ header.Begins t := by
  constructor
  · intro h
    obtain ⟨kind, -, hkind⟩ := List.exists_of_findSome?_eq_some h
    obtain ⟨-, hstart, hbegins⟩ := ofKind?_eq_some_iff.mp hkind
    exact ⟨hstart, hbegins⟩
  · rintro ⟨hstart, hbegins⟩
    have hkind : ofKind? header.kind position t = some header :=
      ofKind?_eq_some_iff.mpr ⟨rfl, hstart, hbegins⟩
    have hother {kind : TypeKind} (hne : kind ≠ header.kind) : ofKind? kind position t = none := by
      refine Option.eq_none_iff_forall_ne_some.mpr fun other hfound ↦ ?_
      obtain ⟨rfl, -, hbegins'⟩ := ofKind?_eq_some_iff.mp hfound
      exact hne (hbegins'.kind_eq hbegins)
    unfold at?
    cases hcase : header.kind with
    | classType => simp [List.findSome?, ← hcase, hkind]
    | interfaceType =>
      have hclass : TypeKind.classType ≠ header.kind := by simp [hcase]
      simp [List.findSome?, hother hclass, ← hcase, hkind]
    | enumType =>
      have hclass : TypeKind.classType ≠ header.kind := by simp [hcase]
      have hinterface : TypeKind.interfaceType ≠ header.kind := by simp [hcase]
      simp [List.findSome?, hother hclass, hother hinterface, ← hcase, hkind]

theorem mem_allBetween_iff {t : Text} {header : TypeHeader} :
    header ∈ allBetween t 0 t.length ↔ header.StandsIn t := by
  have hall (i : Nat) : t.extract i t.length = t.drop i := by
    rw [List.extract_eq_take_drop, ← List.length_drop, List.take_length]
  have hfresh (i : Nat) : begins (t.charBefore? i) = true ↔ Text.FreshAt t i := by
    unfold Text.FreshAt
    cases i with
    | zero => simp [Text.charBefore?, begins]
    | succ i =>
      rw [Text.charBefore?_succ]
      cases hc : t[i]? with
      | none => simp [begins, hc]
      | some c => simp [begins, hc, Text.isNamePart, and_assoc]
  constructor
  · intro h
    obtain ⟨position, -, -, hbegins, hat⟩ := Text.exists_of_mem_findBetween h
    obtain ⟨rfl, hheader⟩ := at?_eq_some_iff.mp hat
    rw [hall] at hheader
    exact ⟨(hfresh _).mp hbegins, hheader⟩
  · rintro ⟨hbegins, hheader⟩
    have hlt : header.start < t.length := by
      refine Nat.not_le.mp fun hle ↦ ?_
      have hhead := hheader.head?_eq
      rw [List.drop_of_length_le hle] at hhead
      cases hhead
    unfold allBetween Text.findBetween
    rw [hall, List.drop_zero]
    refine Text.mem_findAll hlt ?_ (at?_eq_some_iff.mpr ⟨(Nat.zero_add _).symm, hheader⟩)
    have hbefore := (hfresh _).mpr hbegins
    cases hstart : header.start with
    | zero => rfl
    | succ i => rwa [hstart, Text.charBefore?_succ] at hbefore

theorem StandsIn.eq_of_start_eq {t : Text} {header other : TypeHeader} (h : header.StandsIn t)
    (h' : other.StandsIn t) (hstart : header.start = other.start) : header = other := by
  have hfound := at?_eq_some_iff.mpr ⟨rfl, h.begins⟩
  rw [hstart, at?_eq_some_iff.mpr ⟨rfl, h'.begins⟩, Option.some.injEq] at hfound
  exact hfound.symm

/-! ### Headers that share characters -/

theorem exists_mem_of_drop_eq {α : Type} {t front middle back : List α} {k i : Nat}
    (h : t.drop k = front ++ (middle ++ back)) (hle : k + front.length ≤ i)
    (hlt : i < k + front.length + middle.length) : ∃ c ∈ middle, t[i]? = some c := by
  have hi : i - k - front.length < middle.length := by omega
  refine ⟨_, List.getElem_mem hi, ?_⟩
  rw [← List.getElem?_eq_getElem, ← List.getElem?_append_left hi, ← List.getElem?_append_right, ← h,
    List.getElem?_drop]
  · congr 1
    omega
  · omega

theorem isNamePart_of_mem_keyword (kind : TypeKind) :
    ∀ c ∈ kind.keyword, Text.isNamePart c = true := by
  have hall : kind.keyword.all Text.isNamePart = true := by cases kind <;> decide +kernel
  exact List.all_eq_true.mp hall

theorem isName_keyword (kind : TypeKind) : Text.IsName kind.keyword := by
  have hparts := isNamePart_of_mem_keyword kind
  cases kind with
  | classType => exact ⟨'c', _, rfl, by decide, (List.forall_mem_cons.mp hparts).2⟩
  | interfaceType => exact ⟨'i', _, rfl, by decide, (List.forall_mem_cons.mp hparts).2⟩
  | enumType => exact ⟨'e', _, rfl, by decide, (List.forall_mem_cons.mp hparts).2⟩

/-- A header that starts inside another one starts with its name. -/
theorem StandsIn.start_add_eq {t : Text} {header other : TypeHeader} (h : header.StandsIn t)
    (h' : other.StandsIn t) (hlt : header.start < other.start) (hin : other.start < header.stop) :
    other.start + header.name.length = header.stop := by
  obtain ⟨gap, rest, heq, -, hblanks, hname, -, hstop⟩ := h.begins
  obtain ⟨i, hi⟩ : ∃ i, other.start = i + 1 := ⟨other.start - 1, by omega⟩
  -- No name goes on up to where the other header starts.
  have hbefore : ∀ c, t[i]? = some c → Text.isNamePart c = false := fun c hc ↦
    Text.FreshAt.isNamePart_eq_false (hi ▸ h'.fresh) hc
  by_contra hne
  rcases Nat.lt_or_ge i (header.start + header.kind.keyword.length) with hkeyword | hkeyword
  · have hfront : t.drop header.start =
        [] ++ (header.kind.keyword ++ (gap ++ (header.name ++ rest))) := heq
    obtain ⟨c, hc, hat⟩ := exists_mem_of_drop_eq (i := i) hfront (by simp; omega) (by simpa)
    exact absurd (isNamePart_of_mem_keyword _ c hc) (by simp [hbefore c hat])
  · rcases Nat.lt_or_ge other.start (header.start + header.kind.keyword.length + gap.length) with
      hgap | hgap
    · -- White space is no letter.
      obtain ⟨c, hc, hat⟩ := exists_mem_of_drop_eq heq (by omega) hgap
      rw [← List.head?_drop, h'.begins.head?_eq, Option.some.injEq] at hat
      have hblank := hblanks c hc
      rw [← hat, isBlank_initial] at hblank
      cases hblank
    · rw [← List.append_assoc] at heq
      obtain ⟨c, hc, hat⟩ := exists_mem_of_drop_eq (i := i) heq (by simp; omega) (by simp; omega)
      exact absurd (hname.isNamePart c hc) (by simp [hbefore c hat])

/-- A header starts inside one other header at most. -/
theorem StandsIn.eq_of_covers {t : Text} {header before found : TypeHeader} (h : header.StandsIn t)
    (hbefore : before.StandsIn t) (hlt : before.start < header.start)
    (hin : header.start < before.stop) (hfound : found.StandsIn t)
    (hlt' : found.start < header.start) (hin' : header.start < found.stop) : found = before := by
  refine hfound.eq_of_start_eq hbefore ?_
  have hname := hbefore.start_add_eq h hlt hin
  have hname' := hfound.start_add_eq h hlt' hin'
  obtain hless | heq | hless := Nat.lt_trichotomy found.start before.start
  · have hshared := hfound.start_add_eq hbefore hless (hlt.trans hin')
    omega
  · exact heq
  · have hshared := hbefore.start_add_eq hfound hless (hlt'.trans hin)
    omega

/-- Directly before the position, but for white space, stands the keyword at `k`, which continues no
name. -/
def KeywordBefore (t : Text) (position k : Nat) : Prop :=
  Text.FreshAt t k ∧ ∃ (kind : TypeKind) (gap : Text),
    gap ≠ [] ∧ (∀ c ∈ gap, Text.isBlank c = true) ∧
    t.drop k = kind.keyword ++ (gap ++ t.drop position) ∧
    position = k + kind.keyword.length + gap.length

/-- That many keywords stand directly before the position, one behind the other. -/
inductive KeywordsBefore (t : Text) : Nat → Nat → Prop
  | none {position : Nat} (h : ∀ k, ¬ KeywordBefore t position k) : KeywordsBefore t position 0
  | more {position k n : Nat} (h : KeywordBefore t position k) (hk : KeywordsBefore t k n) :
    KeywordsBefore t position (n + 1)

variable {t : Text} {header other : TypeHeader}

theorem KeywordBefore.lt {position k : Nat} (h : KeywordBefore t position k) : k < position := by
  obtain ⟨-, kind, gap, hgap, -, -, rfl⟩ := h
  have hpos := List.length_pos_iff.mpr hgap
  omega

theorem exists_keywordsBefore (t : Text) (position : Nat) : ∃ n, KeywordsBefore t position n := by
  induction position using Nat.strong_induction_on with
  | _ position ih =>
    by_cases hnone : ∀ k, ¬ KeywordBefore t position k
    · exact ⟨0, .none hnone⟩
    · obtain ⟨k, hk⟩ := not_forall_not.mp hnone
      obtain ⟨n, hn⟩ := ih k hk.lt
      exact ⟨n + 1, .more hk hn⟩

/-- The keyword of a header in which another one starts stands directly before that one. -/
theorem StandsIn.keywordBefore (h : header.StandsIn t) (h' : other.StandsIn t)
    (hlt : header.start < other.start) (hin : other.start < header.stop) :
    KeywordBefore t other.start header.start := by
  obtain ⟨gap, rest, heq, hgap, hblanks, -, -, hstop⟩ := h.begins
  have hstart := h.start_add_eq h' hlt hin
  have hposition : other.start = header.start + header.kind.keyword.length + gap.length := by omega
  refine ⟨h.fresh, header.kind, gap, hgap, hblanks, ?_, hposition⟩
  have hrest : t.drop other.start = header.name ++ rest := by
    rw [hposition, Nat.add_assoc, ← List.drop_drop, heq, ← List.drop_drop, List.drop_left,
      List.drop_left]
  rw [hrest, heq]

/-- A keyword directly before a header begins a header, which has the keyword of the other one for
its name. -/
theorem StandsIn.exists_of_keywordBefore (h : other.StandsIn t) {k : Nat}
    (hk : KeywordBefore t other.start k) :
    ∃ header : TypeHeader, header.StandsIn t ∧ header.start = k ∧ other.start < header.stop := by
  obtain ⟨hfresh, kind, gap, hgap, hblanks, heq, hposition⟩ := hk
  obtain ⟨gap', rest, hother, hgap', hblanks', -⟩ := h.begins
  have hpos : 0 < other.kind.keyword.length := by cases other.kind <;> decide
  refine ⟨⟨kind, other.kind.keyword, k, other.start + other.kind.keyword.length⟩, ⟨hfresh, gap, _,
    hother ▸ heq, hgap, hblanks, isName_keyword _, fun c hc ↦ ?_, by simp only; omega⟩, rfl,
    by simp only; omega⟩
  obtain ⟨d, gap', rfl⟩ := List.exists_cons_of_ne_nil hgap'
  have hd : d = c := by simpa using hc
  exact hd ▸ Text.isNamePart_of_isBlank (hblanks' d List.mem_cons_self)

/-- Of headers in order those are found apart that start inside none that is found. -/
theorem mem_apart_iff {headers : List TypeHeader} (hsorted : headers.Pairwise (·.start < ·.start))
    (hmem : header ∈ headers) (resume : Nat) :
    header ∈ apart resume headers ↔ resume ≤ header.start ∧
      ∀ found ∈ apart resume headers, found.start < header.start → found.stop ≤ header.start := by
  induction headers generalizing resume with
  | nil => cases hmem
  | cons first rest ih =>
    obtain ⟨hfirst, hrest⟩ := List.pairwise_cons.mp hsorted
    have hlater {resume : Nat} {found : TypeHeader} (hfound : found ∈ apart resume rest) :
        first.start < found.start := hfirst found ((apart_sublist _ _).subset hfound)
    rw [apart]
    split_ifs with hearly
    · rcases List.mem_cons.mp hmem with rfl | hmem
      · refine iff_of_false (fun hin ↦ absurd (hlater hin) (Nat.lt_irrefl _)) fun hin ↦ ?_
        omega
      · exact ih hrest hmem resume
    · rw [List.mem_cons, List.forall_mem_cons]
      rcases List.mem_cons.mp hmem with rfl | hmem
      · refine iff_of_true (Or.inl rfl) ⟨Nat.not_lt.mp hearly,
          fun hlt ↦ absurd hlt (Nat.lt_irrefl _), fun found hfound hlt ↦ ?_⟩
        exact absurd (hlater hfound) (Nat.lt_asymm hlt)
      · have hlt := hfirst header hmem
        have hne : header ≠ first := fun heq ↦ Nat.lt_irrefl _ (heq ▸ hlt)
        rw [ih hrest hmem first.stop, or_iff_right hne]
        constructor
        · rintro ⟨hstop, hothers⟩
          exact ⟨by omega, fun _ ↦ hstop, hothers⟩
        · rintro ⟨-, hstop, hothers⟩
          exact ⟨hstop hlt, hothers⟩

theorem pairwise_allBetween (t : Text) : (allBetween t 0 t.length).Pairwise (·.start < ·.start) :=
  Text.pairwise_findBetween (fun _ _ _ h ↦ (at?_eq_some_iff.mp h).1) t 0 t.length

/-- A header is found exactly if an even number of keywords stands directly before it. -/
theorem mem_apart_iff_even (h : header.StandsIn t) {n : Nat}
    (hn : KeywordsBefore t header.start n) :
    header ∈ apart 0 (allBetween t 0 t.length) ↔ Even n := by
  have hstands {found : TypeHeader} (hfound : found ∈ apart 0 (allBetween t 0 t.length)) :
      found.StandsIn t := mem_allBetween_iff.mp ((apart_sublist _ _).subset hfound)
  generalize hposition : header.start = position at hn
  induction hn generalizing header with
  | none hnone =>
    subst hposition
    refine iff_of_true ((mem_apart_iff (pairwise_allBetween t) (mem_allBetween_iff.mpr h) 0).mpr
      ⟨Nat.zero_le _, fun found hfound hlt ↦ ?_⟩) Even.zero
    by_contra hin
    exact hnone _ ((hstands hfound).keywordBefore h hlt (Nat.not_le.mp hin))
  | more hk hn ih =>
    subst hposition
    obtain ⟨before, hbefore, hstart, hin⟩ := h.exists_of_keywordBefore hk
    have hlt : before.start < header.start := hstart ▸ hk.lt
    refine Iff.trans ?_ ((not_congr (ih hbefore hstart)).trans Nat.even_add_one.symm)
    rw [mem_apart_iff (pairwise_allBetween t) (mem_allBetween_iff.mpr h) 0]
    constructor
    · rintro ⟨-, hapart⟩ hfound
      exact absurd (hapart before hfound hlt) (Nat.not_le.mpr hin)
    · intro hnot
      refine ⟨Nat.zero_le _, fun found hfound hfoundlt ↦ ?_⟩
      by_contra hfoundin
      have hsame := h.eq_of_covers hbefore hlt hin (hstands hfound) hfoundlt
        (Nat.not_le.mp hfoundin)
      exact hnot (hsame ▸ hfound)

/-- An even number of keywords stands directly before the position. -/
def Exposed (t : Text) (position : Nat) : Prop := ∃ n, KeywordsBefore t position n ∧ Even n

theorem mem_apart_allBetween_iff :
    header ∈ apart 0 (allBetween t 0 t.length) ↔ header.StandsIn t ∧ Exposed t header.start := by
  constructor
  · intro hfound
    have hstands := mem_allBetween_iff.mp ((apart_sublist _ _).subset hfound)
    obtain ⟨n, hn⟩ := exists_keywordsBefore t header.start
    exact ⟨hstands, n, hn, (mem_apart_iff_even hstands hn).mp hfound⟩
  · rintro ⟨hstands, n, hn, heven⟩
    exact (mem_apart_iff_even hstands hn).mpr heven

theorem StandsIn.stop_le (h : header.StandsIn t) : header.stop ≤ t.length := by
  obtain ⟨-, hlt, hle⟩ := at?_bounds (at?_eq_some_iff.mpr ⟨rfl, h.begins⟩)
  rw [List.length_drop] at hle
  omega

/-! ### The first class -/

/-- The header declares a class whose body the brace opens: all of it is code, and the brace comes
before every other brace that opens and every semicolon behind it. -/
structure OpensClass (src : Source) (header : TypeHeader) (brace : Nat) : Prop where
  stands : header.StandsIn src.text
  kind_eq : header.kind = .classType
  isCode : ∀ i < header.stop, header.start ≤ i → src.isCodeAt i = true
  stop_le : header.stop ≤ brace
  opens : src.glyphs[brace]? = some (Glyph.code '\x7b')
  first : ∀ i < brace, header.stop ≤ i →
    src.glyphs[i]? ≠ some (Glyph.code '\x7b') ∧ src.glyphs[i]? ≠ some (Glyph.code ';')

end TypeHeader

namespace Source

variable {src : Source}

theorem isCodeBetween_iff {start stop : Nat} (h : stop ≤ src.length) :
    src.isCodeBetween start stop = true ↔ ∀ i < stop, start ≤ i → src.isCodeAt i = true := by
  have hat {i : Nat} (hstart : start ≤ i) (hi : i < stop) :
      (src.glyphs.extract start stop)[i - start]? = src.glyphs[i]? := by
    rw [getElem?_extract _ (by omega), Nat.add_sub_cancel' hstart]
  rw [isCodeBetween, List.all_eq_true]
  constructor
  · intro hall i hi hstart
    obtain ⟨g, hg⟩ : ∃ g, src.glyphs[i]? = some g :=
      ⟨_, List.getElem?_eq_getElem (Nat.lt_of_lt_of_le hi h)⟩
    have hcode := hall g (List.mem_of_getElem? ((hat hstart hi).trans hg))
    simpa [isCodeAt, hg] using hcode
  · intro hall g hg
    obtain ⟨i, hi⟩ := List.mem_iff_getElem?.mp hg
    have hlt : start + i < stop := by
      have hlength := (List.getElem?_eq_some_iff.mp hi).1
      rw [List.extract_eq_take_drop, List.length_take] at hlength
      omega
    have hcode := hall (start + i) hlt (Nat.le_add_right _ _)
    rw [← Nat.add_sub_cancel_left start i, hat (Nat.le_add_right _ _) hlt] at hi
    simpa [isCodeAt, hi] using hcode

theorem firstCode?_eq_some_iff {characters : Text} {start i : Nat} :
    src.firstCode? characters start src.length = some i ↔ start ≤ i ∧
      (∃ c ∈ characters, src.glyphs[i]? = some (Glyph.code c)) ∧
      ∀ j < i, start ≤ j → ∀ c ∈ characters, src.glyphs[j]? ≠ some (Glyph.code c) := by
  have hwanted (g : Glyph) : (g.isCode && characters.contains g.char) = true ↔
      ∃ c ∈ characters, g = Glyph.code c := by
    obtain ⟨char, isCode⟩ := g
    simp [Glyph.code, and_comm]
  have hall : src.glyphs.extract start src.length = src.glyphs.drop start := by
    rw [List.extract_eq_take_drop, length, ← List.length_drop, List.take_length]
  rw [firstCode?, hall, Option.map_eq_some_iff]
  constructor
  · rintro ⟨k, hk, rfl⟩
    obtain ⟨hlt, hfound, hnone⟩ := List.findIdx?_eq_some_iff_getElem.mp hk
    obtain ⟨c, hc, hglyph⟩ := (hwanted _).mp hfound
    refine ⟨Nat.le_add_right _ _, ⟨c, hc, ?_⟩, fun j hj hstart d hd hglyph' ↦ ?_⟩
    · rw [← List.getElem?_drop, List.getElem?_eq_getElem hlt, hglyph]
    · obtain ⟨l, rfl⟩ := Nat.exists_eq_add_of_le hstart
      have hl : l < (src.glyphs.drop start).length := by omega
      rw [← List.getElem?_drop, List.getElem?_eq_getElem hl, Option.some.injEq] at hglyph'
      exact hnone l (by omega) ((hwanted _).mpr ⟨d, hd, hglyph'⟩)
  · rintro ⟨hstart, ⟨c, hc, hglyph⟩, hnone⟩
    obtain ⟨k, rfl⟩ := Nat.exists_eq_add_of_le hstart
    rw [← List.getElem?_drop] at hglyph
    obtain ⟨hlt, hglyph⟩ := List.getElem?_eq_some_iff.mp hglyph
    refine ⟨k, List.findIdx?_eq_some_iff_getElem.mpr ⟨hlt, (hwanted _).mpr ⟨c, hc, hglyph⟩,
      fun j hj hfound ↦ ?_⟩, rfl⟩
    obtain ⟨d, hd, hglyph'⟩ := (hwanted _).mp hfound
    refine hnone (start + j) (by omega) (Nat.le_add_right _ _) d hd ?_
    rw [← List.getElem?_drop, List.getElem?_eq_getElem (hj.trans hlt), hglyph']

end Source

namespace TypeHeader

theorem opensClass_iff {src : Source} {header : TypeHeader} {brace : Nat} :
    header.OpensClass src brace ↔ header.StandsIn src.text ∧ header.kind = .classType ∧
      header.openBrace? src src.length = some brace := by
  have hstop (hstands : header.StandsIn src.text) : header.stop ≤ src.length :=
    hstands.stop_le.trans_eq src.length_glyphs.symm
  constructor
  · intro h
    have hcode := (Source.isCodeBetween_iff (hstop h.stands)).mpr h.isCode
    have hfirst : src.firstCode? ['\x7b', ';'] header.stop src.length = some brace := by
      refine Source.firstCode?_eq_some_iff.mpr
        ⟨h.stop_le, ⟨'\x7b', List.mem_cons_self, h.opens⟩, fun i hi hle c hc ↦ ?_⟩
      rcases List.mem_cons.mp hc with rfl | hc
      · exact (h.first i hi hle).1
      · exact List.mem_singleton.mp hc ▸ (h.first i hi hle).2
    refine ⟨h.stands, h.kind_eq, ?_⟩
    rw [openBrace?, if_pos hcode, hfirst, Option.filter_some, src.getElem?_text, h.opens]
    rfl
  · rintro ⟨hstands, hkind, hopen⟩
    unfold openBrace? at hopen
    split_ifs at hopen with hcode
    obtain ⟨hfirst, hchar⟩ := Option.filter_eq_some_iff.mp hopen
    obtain ⟨hle, ⟨c, -, hglyph⟩, hnone⟩ := Source.firstCode?_eq_some_iff.mp hfirst
    rw [src.getElem?_text, hglyph, Option.map_some, beq_iff_eq, Option.some.injEq] at hchar
    obtain rfl : c = '\x7b' := hchar
    exact ⟨hstands, hkind, (Source.isCodeBetween_iff (hstop hstands)).mp hcode, hle, hglyph,
      fun i hi hbehind ↦ ⟨hnone i hi hbehind _ (by simp), hnone i hi hbehind _ (by simp)⟩⟩

end TypeHeader

namespace Source

open TypeHeader

/-- In a list in order of a key a search finds what has the least key. -/
theorem findSome?_eq_some_iff_first {α β : Type} {key : α → Nat} {l : List α} {f : α → Option β}
    {y : β} (hsorted : l.Pairwise (key · < key ·)) :
    l.findSome? f = some y ↔
      ∃ x ∈ l, f x = some y ∧ ∀ earlier ∈ l, key earlier < key x → f earlier = none := by
  rw [List.findSome?_eq_some_iff]
  constructor
  · rintro ⟨front, x, back, rfl, hx, hnone⟩
    refine ⟨x, by simp, hx, fun earlier hin hlt ↦ hnone earlier ?_⟩
    have hbehind := (List.pairwise_cons.mp (List.pairwise_append.mp hsorted).2.1).1 earlier
    rcases List.mem_append.mp hin with hfront | hrest
    · exact hfront
    · rcases List.mem_cons.mp hrest with rfl | hback
      · exact absurd hlt (Nat.lt_irrefl _)
      · exact absurd hlt (Nat.lt_asymm (hbehind hback))
  · rintro ⟨x, hin, hx, hnone⟩
    obtain ⟨front, back, rfl⟩ := List.append_of_mem hin
    refine ⟨front, x, back, rfl, hx, fun earlier hfront ↦ hnone earlier (by simp [hfront]) ?_⟩
    exact (List.pairwise_append.mp hsorted).2.2 earlier hfront x List.mem_cons_self

/-- The class that a source declares first is that of the first class header in code that has an
even number of keywords directly before it, wherever these stand, and there is none exactly if there
is no such header. -/
theorem firstClass?_eq_first (src : Source) :
    (src.firstClass? = none ↔ ∀ header brace, OpensClass src header brace →
      ¬ Exposed src.text header.start) ∧
    ∀ name brace, src.firstClass? = some (name, brace) ↔
      ∃ header, header.name = name ∧ OpensClass src header brace ∧ Exposed src.text header.start ∧
        ∀ earlier brace', OpensClass src earlier brace' → earlier.start < header.start →
          ¬ Exposed src.text earlier.start := by
  set found := (apart 0 (allBetween src.text 0 src.length)).filter (·.kind == .classType)
    with hfound
  have hmem {header : TypeHeader} : header ∈ found ↔
      header.StandsIn src.text ∧ Exposed src.text header.start ∧ header.kind = .classType := by
    rw [hfound, List.mem_filter, length, src.length_glyphs, mem_apart_allBetween_iff, beq_iff_eq,
      and_assoc]
  have hsorted : found.Pairwise (·.start < ·.start) := by
    rw [hfound, length, src.length_glyphs]
    exact ((pairwise_allBetween src.text).sublist (apart_sublist _ _)).filter _
  have hclass : src.firstClass? = found.findSome? fun header ↦
      (header.openBrace? src src.length).map fun brace ↦ (header.name, brace) := rfl
  have hopens {header : TypeHeader} {brace : Nat} :
      header ∈ found ∧ header.openBrace? src src.length = some brace ↔
        OpensClass src header brace ∧ Exposed src.text header.start := by
    rw [hmem, opensClass_iff]
    tauto
  -- A header is passed over if it opens no class or is not exposed.
  have hnone {header : TypeHeader} : (header ∈ found → (header.openBrace? src src.length).map
      (fun brace ↦ (header.name, brace)) = none) ↔
        ∀ brace, OpensClass src header brace → ¬ Exposed src.text header.start := by
    rw [Option.map_eq_none_iff, Option.eq_none_iff_forall_ne_some]
    constructor
    · intro hpassed brace hopen hexposed
      obtain ⟨hin, hbrace⟩ := hopens.mpr ⟨hopen, hexposed⟩
      exact hpassed hin brace hbrace
    · intro hpassed hin brace hbrace
      obtain ⟨hopen, hexposed⟩ := hopens.mp ⟨hin, hbrace⟩
      exact hpassed brace hopen hexposed
  refine ⟨?_, fun name brace ↦ ?_⟩
  · rw [hclass, List.findSome?_eq_none_iff]
    exact forall_congr' fun header ↦ hnone
  · rw [hclass, findSome?_eq_some_iff_first hsorted]
    constructor
    · rintro ⟨header, hin, hheader, hearlier⟩
      obtain ⟨brace, hbrace, heq⟩ := Option.map_eq_some_iff.mp hheader
      obtain ⟨rfl, rfl⟩ := Prod.mk.inj heq
      obtain ⟨hopen, hexposed⟩ := hopens.mp ⟨hin, hbrace⟩
      exact ⟨header, rfl, hopen, hexposed, fun earlier brace' hopen' hlt ↦
        hnone.mp (fun hin' ↦ hearlier earlier hin' hlt) brace' hopen'⟩
    · rintro ⟨header, rfl, hopen, hexposed, hearlier⟩
      obtain ⟨hin, hbrace⟩ := hopens.mpr ⟨hopen, hexposed⟩
      exact ⟨header, hin, by rw [hbrace, Option.map_some], fun earlier hin' hlt ↦
        hnone.mpr (fun brace' hopen' ↦ hearlier earlier brace' hopen' hlt) hin'⟩

/-- A comment that ends with a keyword directly before the header of the class. -/
def keywordInCommentSource : Text := "// A helper class\nclass A \x7b\x7d".toList

/-- Its class is not discovered, although the header is code. -/
theorem keywordInCommentSource_undiscovered :
    (ofText keywordInCommentSource).firstClass? = none ∧
      OpensClass (ofText keywordInCommentSource) ⟨.classType, ['A'], 18, 25⟩ 26 := by
  refine ⟨by decide +kernel, opensClass_iff.mpr ⟨mem_allBetween_iff.mp ?_, rfl, ?_⟩⟩
  · decide +kernel
  · decide +kernel

end Source

end MemberOrder
