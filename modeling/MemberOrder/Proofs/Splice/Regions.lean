import MemberOrder.Proofs.Splice.Basic

/-!
The regions of a spliced body. Nested types and initializer blocks are found in the piece as they
are in the piece alone, and in the rest as they are in the rest alone: delimiters close where they
did, a statement may start where it could before, and a region of the one does not reach into the
other. So the regions of the whole are those of the piece followed by those of the rest, shifted.
-/

set_option autoImplicit false

namespace MemberOrder

namespace Region

def moved (shift : Nat) (r : Region) : Region := ⟨r.start + shift, r.stop + shift⟩

/-- The region is not empty and lies between `a` and `b`. -/
def Within (a b : Nat) (r : Region) : Prop := a ≤ r.start ∧ r.start < r.stop ∧ r.stop ≤ b

theorem contains_eq_false {r : Region} {i : Nat} :
    r.contains i = false ↔ i < r.start ∨ r.stop ≤ i := by
  simp only [contains, Bool.and_eq_false_iff, decide_eq_false_iff_not]
  omega

theorem holding?_eq_some {l : List Region} {i : Nat} {r : Region} (h : holding? l i = some r) :
    r ∈ l ∧ r.start ≤ i ∧ i < r.stop := by
  unfold holding? at h
  have hholds := List.find?_some h
  simp only [contains, Bool.and_eq_true, decide_eq_true_eq] at hholds
  exact ⟨List.mem_of_find?_eq_some h, hholds⟩

theorem comesBefore_iff {r s : Region} :
    r.comesBefore s = true ↔ r.start < s.start ∨ r.start = s.start ∧ r.stop ≤ s.stop := by
  simp only [comesBefore, Bool.or_eq_true, Bool.and_eq_true, decide_eq_true_eq, beq_iff_eq]

end Region

namespace Spliced

variable {whole alone rest : Source} {name : Text} {o w c : Nat}
  (h : Spliced whole alone rest o w) (hsealed : ClassBody.Sealed alone ⟨name, o, o + w + 2⟩)

/-! ### Depth, boundaries and delimiters -/

include h in
theorem extract_whole {i : Nat} (hi : o + 1 ≤ i) : whole.glyphs.extract o (i + w) =
    alone.glyphs.extract o (o + w + 1) ++ rest.glyphs.extract (o + 1) i := by
  rw [← extract_append_extract whole.glyphs (show o ≤ o + w + 1 by omega)
    (show o + w + 1 ≤ i + w by omega), h.front.extract (by omega),
    ← h.back.extract i (Nat.le_refl _), show o + 1 + w = o + w + 1 by omega]

include h in
theorem extract_rest {i : Nat} (hi : o + 1 ≤ i) :
    rest.glyphs.extract o i = Glyph.code '\x7b' :: rest.glyphs.extract (o + 1) i :=
  extract_eq_cons h.opens hi

include hsealed

theorem extract_alone (i : Nat) (hi : i ≤ o + w + 1) : alone.glyphs.extract i (o + w + 2) =
    alone.glyphs.extract i (o + w + 1) ++ [Glyph.code '\n'] :=
  extract_eq_concat (alone_feed hsealed) hi

theorem depthAfter_piece :
    Source.Balanced ['\x7b'] ['\x7d'] (alone.glyphs.extract (o + 1) (o + w + 1)) := by
  have hbraces := hsealed.braces
  simp only [extract_alone hsealed (o + 1) (by omega), Source.Balanced,
    Source.depthAfter_append] at hbraces
  obtain ⟨inner, hinner, hfeed⟩ := Option.bind_eq_some_iff.mp hbraces
  rw [Source.Balanced, hinner, ← hfeed]
  rfl

/-- The last character of the piece that says something, or the brace before it, ends a statement
or opens or closes a block. -/
theorem exists_boundary : ∃ g, (alone.glyphs.extract o (o + w + 1)).reverse.find? (·.isSolid) =
    some g ∧ ClassBody.isBoundary g.char = true := by
  have hboundary := hsealed.boundary
  unfold Source.lastSolid? at hboundary
  rw [extract_alone hsealed o (by omega), List.reverse_append,
    List.reverse_singleton, List.singleton_append, List.find?_cons_of_neg (by decide),
    Option.any_map, Option.any_eq_true] at hboundary
  obtain ⟨g, hg, hchar⟩ := hboundary
  exact ⟨g, hg, hchar⟩

include h

/-- A statement may start at a place of the rest exactly if it could there before. -/
theorem map_lastSolid? {i : Nat} (hi : o + 1 ≤ i) :
    (whole.lastSolid? o (i + w)).map ClassBody.isBoundary =
      (rest.lastSolid? o i).map ClassBody.isBoundary := by
  obtain ⟨g, hg, hchar⟩ := exists_boundary hsealed
  unfold Source.lastSolid?
  rw [h.extract_whole hi, h.extract_rest hi, List.reverse_append, List.find?_append, hg,
    List.reverse_cons, List.find?_append]
  cases (rest.glyphs.extract (o + 1) i).reverse.find? (·.isSolid) with
  | some last => rfl
  | none =>
    simp only [Option.none_or, Option.map_some, hchar]
    rfl

theorem braceDepth_rest {i : Nat} (hi : o + 1 ≤ i) :
    whole.braceDepth o (i + w) = rest.braceDepth o i := by
  have hzero := Source.braceBalance_of_depthAfter (depthAfter_piece hsealed)
  have hfront : alone.glyphs.extract o (o + w + 1) =
      Glyph.code '\x7b' :: alone.glyphs.extract (o + 1) (o + w + 1) :=
    extract_eq_cons hsealed.opens (by omega)
  unfold Source.braceDepth
  rw [h.extract_whole hi, h.extract_rest hi, hfront]
  simp only [Source.braceBalance_append, Source.braceBalance_cons]
  omega

/-- The body of the whole closes where the rest does. -/
theorem closingBrace?_open : whole.closingBrace? o = (rest.closingBrace? o).map (· + w) := by
  have hrest : rest.glyphs.drop o = Glyph.code '\x7b' :: rest.glyphs.drop (o + 1) := by
    obtain ⟨hlt, hopen⟩ := List.getElem?_eq_some_iff.mp h.opens
    rw [List.drop_eq_getElem_cons hlt, hopen]
  have hwhole : whole.glyphs.drop o = Glyph.code '\x7b' ::
      (alone.glyphs.extract (o + 1) (o + w + 1) ++ rest.glyphs.drop (o + 1)) := by
    have hopen := (h.front.getElem? (show o < o + w + 2 by omega)).trans hsealed.opens
    obtain ⟨hlt, hopen⟩ := List.getElem?_eq_some_iff.mp hopen
    rw [List.drop_eq_getElem_cons hlt, hopen, ← h.back.drop (Nat.le_refl _),
      ← h.front.extract (by omega), List.extract_eq_take_drop,
      show o + w + 1 - (o + 1) = w by omega, ← List.drop_drop (i := w) (j := o + 1),
      List.take_append_drop]
  have hlength : (alone.glyphs.extract (o + 1) (o + w + 1)).length = w := by
    rw [← List.length_map Glyph.char, Source.map_char_extract, piece_length hsealed]
  unfold Source.closingBrace? Source.closeOf?
  rw [hrest, hwhole]
  simp only
  rw [if_pos (by decide), if_pos (by decide),
    Source.closeIn_append_of_depthAfter (depthAfter_piece hsealed), hlength, Option.map_map,
    Option.map_map]
  congr 1
  funext i
  simp only [Function.comp_apply]
  omega

/-- A brace of the piece closes in it. -/
theorem innerClose?_piece (hc : o + 1 < c) {i : Nat} (hi : o + 1 ≤ i) (hlt : i < o + w + 2) :
    ClassBody.innerClose? whole ⟨name, o, c + w⟩ i =
      ClassBody.innerClose? alone ⟨name, o, o + w + 2⟩ i := by
  obtain ⟨heq, hbefore⟩ := h.front.closeOf? hsealed.braces hi hlt
  unfold ClassBody.innerClose? Source.closingBrace?
  rw [heq]
  cases hclose : alone.closeOf? ['\x7b'] ['\x7d'] i with
  | none => rfl
  | some close =>
    have hclose := hbefore close hclose
    simp only [Option.filter_some, decide_eq_true_eq]
    rw [if_pos hclose, if_pos (by omega)]

omit hsealed in
theorem innerClose?_rest {i : Nat} (hi : o + 1 ≤ i) :
    ClassBody.innerClose? whole ⟨name, o, c + w⟩ (i + w) =
      (ClassBody.innerClose? rest ⟨name, o, c⟩ i).map (· + w) := by
  unfold ClassBody.innerClose? Source.closingBrace?
  rw [h.back.closeOf? _ _ hi]
  cases rest.closeOf? ['\x7b'] ['\x7d'] i with
  | none => rfl
  | some close =>
    simp only [Option.map_some, Option.filter_some, decide_eq_true_eq, Nat.add_lt_add_iff_right]
    split_ifs <;> rfl

omit h in
theorem lt_of_innerClose? {i close : Nat}
    (hclose : ClassBody.innerClose? alone ⟨name, o, o + w + 2⟩ i = some close) :
    close < o + w + 1 := by
  obtain ⟨hbrace, hlt⟩ := ClassBody.innerClose?_eq_some hclose
  have hchar := Source.getElem?_of_closeOf? hbrace
  refine Nat.lt_of_le_of_ne (Nat.le_of_lt_succ hlt) fun heq ↦ ?_
  rw [heq, alone_feed hsealed] at hchar
  revert hchar
  decide

/-! ### Nested types -/

omit hsealed in
theorem lineStart_piece (c' : Nat) {i : Nat} (hi : i ≤ o + w + 2) :
    ClassBody.lineStart whole ⟨name, o, c'⟩ i =
      ClassBody.lineStart alone ⟨name, o, o + w + 2⟩ i := by
  unfold ClassBody.lineStart
  rw [h.front.text_take hi]

/-- The line of a place in the rest starts in the rest. -/
theorem lineStart_rest (c' : Nat) {i : Nat} (hi : o + 2 ≤ i) :
    ClassBody.lineStart whole ⟨name, o, c'⟩ (i + w) =
        ClassBody.lineStart rest ⟨name, o, c⟩ i + w ∧
      o + 2 ≤ ClassBody.lineStart rest ⟨name, o, c⟩ i := by
  obtain ⟨z, hrest, hwhole⟩ := h.exists_text_eq hsealed (show o + 1 < i by omega)
  have hz : z.length ≤ i - (o + 2) := by
    have hlength := congrArg List.length hrest
    rw [List.extract_eq_take_drop, List.length_take, List.length_cons] at hlength
    omega
  have hline (front : Text) : ((front ++ '\n' :: z).reverse.takeWhile (· != '\n')) =
      z.reverse.takeWhile (· != '\n') := by
    rw [List.reverse_append, List.reverse_cons, List.append_assoc, List.singleton_append,
      takeWhile_append_of_neg _ (by decide)]
  have hlt := (List.takeWhile_sublist (l := z.reverse) (· != '\n')).length_le
  rw [List.length_reverse] at hlt
  unfold ClassBody.lineStart
  rw [← take_append_extract whole.text (show o + 1 ≤ i + w by omega), hwhole,
    ← take_append_extract rest.text (show o + 1 ≤ i by omega), hrest, ← List.append_assoc,
    hline, hline]
  simp only
  omega

omit h in
theorem header_bounds_piece {header : TypeHeader}
    (hheader : header ∈ TypeHeader.allBetween alone.text (o + 1) (o + w + 2)) :
    o + 1 ≤ header.start ∧ header.start < header.stop ∧ header.stop ≤ o + w + 1 := by
  obtain ⟨p, s, hp, -, hlength, hat⟩ :=
    exists_of_mem_alone hsealed (contained_header hsealed) hheader
  obtain ⟨rfl, hlt, hle⟩ := TypeHeader.at?_bounds hat
  omega

theorem header_bounds_rest (hc : o + 1 < c) {header : TypeHeader}
    (hheader : header ∈ TypeHeader.allBetween rest.text (o + 1) c) :
    o + 2 ≤ header.start ∧ header.start < header.stop := by
  obtain ⟨p, s, hp, -, hat⟩ :=
    h.exists_of_mem_rest hsealed (contained_header hsealed) hc hheader
  obtain ⟨rfl, hlt, -⟩ := TypeHeader.at?_bounds hat
  exact ⟨hp, hlt⟩

theorem typeEnd?_piece (hc : o + 1 < c) {header : TypeHeader}
    (hheader : header ∈ TypeHeader.allBetween alone.text (o + 1) (o + w + 2)) :
    ClassBody.typeEnd? whole ⟨name, o, c + w⟩ header =
      ClassBody.typeEnd? alone ⟨name, o, o + w + 2⟩ header := by
  obtain ⟨hstart, hlt, hstop⟩ := header_bounds_piece hsealed hheader
  unfold ClassBody.typeEnd? TypeHeader.openBrace?
  rw [h.front.isCodeBetween (show header.stop ≤ o + w + 2 by omega)]
  by_cases hcode : alone.isCodeBetween header.start header.stop = true
  · rw [if_pos hcode, if_pos hcode]
    obtain ⟨i, hfound⟩ := Option.isSome_iff_exists.mp (hsealed.headers header hheader hcode)
    obtain ⟨hwhole, hi, hilt⟩ := h.front.firstCode? (show o + w + 2 ≤ c + w by omega) hfound
    simp only at hfound ⊢
    rw [hwhole, hfound, Option.filter_some, Option.filter_some, h.front.text_getElem? hilt]
    split_ifs with hbrace
    · exact h.innerClose?_piece hsealed hc (by omega) hilt
    · rfl
  · rw [if_neg hcode, if_neg hcode]
    rfl

omit hsealed in
theorem typeEnd?_rest {header : TypeHeader} (hstart : o + 1 ≤ header.start)
    (hstop : header.start < header.stop) :
    ClassBody.typeEnd? whole ⟨name, o, c + w⟩ (header.moved w) =
      (ClassBody.typeEnd? rest ⟨name, o, c⟩ header).map (· + w) := by
  unfold ClassBody.typeEnd? TypeHeader.openBrace? TypeHeader.moved
  simp only
  rw [h.back.isCodeBetween _ hstart, h.back.firstCode? _ _ (by omega)]
  split_ifs with hcode
  · cases hfound : rest.firstCode? ['\x7b', ';'] header.stop c with
    | none => rfl
    | some i =>
      have hi : o + 1 ≤ i := by
        obtain ⟨j, -, rfl⟩ := Option.map_eq_some_iff.mp hfound
        omega
      simp only [Option.map_some, Option.filter_some, h.back.text_getElem? hi]
      split_ifs with hbrace
      · exact h.innerClose?_rest hi
      · rfl
  · rfl

/-- Two searches stand at the same candidate of the rest, if at one. -/
def Resumes (o w r r' : Nat) : Prop := r' = r + w ∨ (r ≤ o + 2 ∧ r' ≤ o + w + 2)

omit h hsealed in
theorem Resumes.lt_iff {r r' i : Nat} (hresumes : Resumes o w r r') (hi : o + 2 ≤ i) :
    i < r ↔ i + w < r' := by
  rcases hresumes with rfl | ⟨hr, hr'⟩ <;> omega

theorem typeRegions_whole (hc : o + 1 < c) :
    ClassBody.typeRegions whole ⟨name, o, c + w⟩ (o + 1)
        (TypeHeader.allBetween whole.text (o + 1) (c + w)) =
      ClassBody.typeRegions alone ⟨name, o, o + w + 2⟩ (o + 1)
          (TypeHeader.allBetween alone.text (o + 1) (o + w + 2)) ++
        (ClassBody.typeRegions rest ⟨name, o, c⟩ (o + 1)
          (TypeHeader.allBetween rest.text (o + 1) c)).map (Region.moved w) := by
  have hall : TypeHeader.allBetween whole.text (o + 1) (c + w) = _ :=
    h.findBetween_eq hsealed (contained_header hsealed) hc
  rw [hall, ClassBody.typeRegions_eq_sweep, ClassBody.typeRegions_eq_sweep,
    ClassBody.typeRegions_eq_sweep]
  refine sweep_append_map (I := fun r _ ↦ r ≤ o + w + 1) (R := fun r _ r' _ ↦ Resumes o w r r')
    ?_ ?_ ?_ (by omega) fun hend ↦ Or.inr ⟨by omega, by omega⟩
  · intro r s hr header hheader hlate
    obtain ⟨-, hlt, hstop⟩ := header_bounds_piece hsealed hheader
    have htype := h.typeEnd?_piece hsealed hc hheader
    unfold ClassBody.decideType
    rw [htype, h.lineStart_piece _ (by omega)]
    refine ⟨rfl, ?_⟩
    cases hend : ClassBody.typeEnd? alone ⟨name, o, o + w + 2⟩ header with
    | none => exact hstop
    | some close =>
      obtain ⟨brace, -, hclose⟩ := Option.bind_eq_some_iff.mp hend
      exact lt_of_innerClose? hsealed hclose
  · intro r s r' s' hresumes header hheader
    exact hresumes.lt_iff (h.header_bounds_rest hsealed hc hheader).1
  · intro r s r' s' hresumes header hheader hlate
    obtain ⟨hstart, hlt⟩ := h.header_bounds_rest hsealed hc hheader
    unfold ClassBody.decideType
    rw [h.typeEnd?_rest (by omega) hlt]
    cases ClassBody.typeEnd? rest ⟨name, o, c⟩ header with
    | none => exact ⟨rfl, Or.inl rfl⟩
    | some close =>
      have hline := (h.lineStart_rest (c := c) hsealed (c + w) hstart).1
      refine ⟨?_, Or.inl (by simp only [Option.map_some]; omega)⟩
      simp only [Option.map_some, TypeHeader.moved, hline, List.map_cons, List.map_nil,
        Region.moved]
      rw [show close + w + 1 = close + 1 + w by omega]

omit h in
theorem within_typeRegions_piece {r : Region}
    (hr : r ∈ ClassBody.typeRegions alone ⟨name, o, o + w + 2⟩ (o + 1)
      (TypeHeader.allBetween alone.text (o + 1) (o + w + 2))) :
    r.Within (o + 1) (o + w + 1) := by
  rw [ClassBody.typeRegions_eq_sweep] at hr
  obtain ⟨r', s', header, hheader, hfound⟩ := exists_of_mem_sweep hr
  obtain ⟨hstart, hshort, -⟩ := header_bounds_piece hsealed hheader
  obtain ⟨close, hend, rfl⟩ := ClassBody.mem_decideType hfound
  obtain ⟨hlt, -⟩ := ClassBody.lt_of_typeEnd? hend
  obtain ⟨brace, -, hclose⟩ := Option.bind_eq_some_iff.mp hend
  have hbefore := lt_of_innerClose? hsealed hclose
  unfold Region.Within ClassBody.lineStart
  simp only
  omega

theorem within_typeRegions_rest (hc : o + 1 < c) {r : Region}
    (hr : r ∈ ClassBody.typeRegions rest ⟨name, o, c⟩ (o + 1)
      (TypeHeader.allBetween rest.text (o + 1) c)) : r.Within (o + 2) c := by
  rw [ClassBody.typeRegions_eq_sweep] at hr
  obtain ⟨r', s', header, hheader, hfound⟩ := exists_of_mem_sweep hr
  obtain ⟨hstart, hshort⟩ := h.header_bounds_rest hsealed hc hheader
  obtain ⟨close, hend, rfl⟩ := ClassBody.mem_decideType hfound
  obtain ⟨hlt, hbefore⟩ := ClassBody.lt_of_typeEnd? hend
  obtain ⟨-, hline⟩ := h.lineStart_rest (c := c) hsealed (c + w) hstart
  have hle : ClassBody.lineStart rest ⟨name, o, c⟩ header.start ≤ header.start := by
    unfold ClassBody.lineStart
    simp only
    omega
  exact ⟨hline, by simp only; omega, hbefore⟩

/-! ### Initializer blocks -/

section Taken

variable {taken A B : List Region} (htaken : taken.Perm (A ++ B.map (Region.moved w)))
  (hA : ∀ r ∈ A, r.Within (o + 1) (o + w + 1)) (hB : ∀ r ∈ B, r.Within (o + 2) c)

omit h hsealed in
theorem isNone_holding? {l : List Region} {i : Nat} :
    (Region.holding? l i).isNone = true ↔ ∀ r ∈ l, r.contains i = false := by
  rw [Option.isNone_iff_eq_none, Region.holding?, List.find?_eq_none]
  simp only [Bool.not_eq_true]

include htaken hA hB

omit hA h hsealed in
/-- No region of the rest holds a place of the piece. -/
theorem isNone_holding?_piece {i : Nat} (hi : i ≤ o + w + 1) :
    (Region.holding? taken i).isNone = (Region.holding? A i).isNone := by
  rw [Bool.eq_iff_iff, isNone_holding?, isNone_holding?]
  constructor
  · intro hnone r hr
    exact hnone r (htaken.mem_iff.mpr (List.mem_append_left _ hr))
  · intro hnone r hr
    rcases List.mem_append.mp (htaken.mem_iff.mp hr) with hr | hr
    · exact hnone r hr
    · obtain ⟨own, hown, rfl⟩ := List.mem_map.mp hr
      have hstart := (hB own hown).1
      exact Region.contains_eq_false.mpr (Or.inl (by simp only [Region.moved]; omega))

omit hB h hsealed in
/-- No region of the piece holds a place of the rest. -/
theorem isNone_holding?_rest {i : Nat} (hi : o + 1 ≤ i) :
    (Region.holding? taken (i + w)).isNone = (Region.holding? B i).isNone := by
  have hmoved (r : Region) : (r.moved w).contains (i + w) = r.contains i := by
    simp [Region.contains, Region.moved]
  rw [Bool.eq_iff_iff, isNone_holding?, isNone_holding?]
  constructor
  · intro hnone r hr
    rw [← hmoved]
    exact hnone _ (htaken.mem_iff.mpr (List.mem_append_right _ (List.mem_map_of_mem hr)))
  · intro hnone r hr
    rcases List.mem_append.mp (htaken.mem_iff.mp hr) with hr | hr
    · have hstop := (hA r hr).2.2
      exact Region.contains_eq_false.mpr (Or.inr (by omega))
    · obtain ⟨own, hown, rfl⟩ := List.mem_map.mp hr
      rw [hmoved]
      exact hnone own hown

end Taken

variable {recognise : Nat → Text → Option InitializerHead}
  (hcontained : Text.Contained recognise InitializerHead.moved
    (alone.text.extract (o + 1) (o + w + 1)))
  (hbounds : ∀ {start : Nat} {t : Text} {head : InitializerHead}, recognise start t = some head →
    head.start = start ∧ start ≤ head.brace ∧ head.brace < head.stop ∧
      head.stop ≤ start + t.length)

omit h in
include hcontained hbounds in
theorem initializer_bounds_piece {head : InitializerHead}
    (hhead : head ∈ alone.text.findBetween Text.beginsLine recognise (o + 1) (o + w + 2)) :
    o + 1 ≤ head.start ∧ head.start ≤ head.brace ∧ head.brace < head.stop ∧
      head.stop ≤ o + w + 1 := by
  obtain ⟨p, s, hp, -, hlength, hrecognise⟩ := exists_of_mem_alone hsealed hcontained hhead
  obtain ⟨rfl, hbrace, hstop, hle⟩ := hbounds hrecognise
  omega

include hcontained hbounds in
theorem initializer_bounds_rest (hc : o + 1 < c) {head : InitializerHead}
    (hhead : head ∈ rest.text.findBetween Text.beginsLine recognise (o + 1) c) :
    o + 2 ≤ head.start ∧ head.start ≤ head.brace ∧ head.brace < head.stop := by
  obtain ⟨p, s, hp, -, hrecognise⟩ := h.exists_of_mem_rest hsealed hcontained hc hhead
  obtain ⟨rfl, hbrace, hstop, -⟩ := hbounds hrecognise
  exact ⟨hp, hbrace, hstop⟩

section Taken

variable {taken A B : List Region} (htaken : taken.Perm (A ++ B.map (Region.moved w)))
  (hA : ∀ r ∈ A, r.Within (o + 1) (o + w + 1)) (hB : ∀ r ∈ B, r.Within (o + 2) c)
  (atBoundary : Bool)

include htaken

include hB in
theorem initializerEnd?_piece (hc : o + 1 < c) {head : InitializerHead}
    (hstart : o + 1 ≤ head.brace) (hstop : head.brace ≤ o + w) :
    ClassBody.initializerEnd? whole ⟨name, o, c + w⟩ taken atBoundary head =
      ClassBody.initializerEnd? alone ⟨name, o, o + w + 2⟩ A atBoundary head := by
  unfold ClassBody.initializerEnd?
  rw [h.front.isCodeAt (by omega), isNone_holding?_piece htaken hB (by omega),
    h.innerClose?_piece hsealed hc hstart (by omega)]
  simp only [h.front.lastSolid? (show head.brace ≤ o + w + 2 by omega)]

include hA in
theorem initializerEnd?_rest {head : InitializerHead} (hstart : o + 1 ≤ head.brace) :
    ClassBody.initializerEnd? whole ⟨name, o, c + w⟩ taken atBoundary (head.moved w) =
      (ClassBody.initializerEnd? rest ⟨name, o, c⟩ B atBoundary head).map (· + w) := by
  have hboundary : (whole.lastSolid? o (head.brace + w)).any ClassBody.isBoundary =
      (rest.lastSolid? o head.brace).any ClassBody.isBoundary := by
    have hmap := congrArg (Option.any id) (h.map_lastSolid? hsealed hstart)
    simpa only [Option.any_map, id_eq] using hmap
  unfold ClassBody.initializerEnd? InitializerHead.moved
  simp only
  rw [h.back.isCodeAt hstart, isNone_holding?_rest htaken hA hstart, hboundary,
    h.innerClose?_rest hstart]
  split_ifs <;> rfl

include hA hB hcontained hbounds

theorem initializerRegions_whole (hc : o + 1 < c) :
    ClassBody.initializerRegions whole ⟨name, o, c + w⟩ taken atBoundary (o + 1)
        (whole.text.findBetween Text.beginsLine recognise (o + 1) (c + w)) =
      ClassBody.initializerRegions alone ⟨name, o, o + w + 2⟩ A atBoundary (o + 1)
          (alone.text.findBetween Text.beginsLine recognise (o + 1) (o + w + 2)) ++
        (ClassBody.initializerRegions rest ⟨name, o, c⟩ B atBoundary (o + 1)
          (rest.text.findBetween Text.beginsLine recognise (o + 1) c)).map (Region.moved w) := by
  rw [h.findBetween_eq hsealed hcontained hc, ClassBody.initializerRegions_eq_sweep,
    ClassBody.initializerRegions_eq_sweep, ClassBody.initializerRegions_eq_sweep]
  refine sweep_append_map (I := fun r _ ↦ r ≤ o + w + 1) (R := fun r _ r' _ ↦ Resumes o w r r')
    ?_ ?_ ?_ (by omega) fun hend ↦ Or.inr ⟨by omega, by omega⟩
  · intro r s hr head hhead hlate
    obtain ⟨hstart, hbrace, hlt, hstop⟩ :=
      initializer_bounds_piece hsealed hcontained hbounds hhead
    unfold ClassBody.decideInitializer
    rw [h.initializerEnd?_piece hsealed htaken hB atBoundary hc (by omega) (by omega)]
    refine ⟨rfl, ?_⟩
    cases hend : ClassBody.initializerEnd? alone ⟨name, o, o + w + 2⟩ A atBoundary head with
    | none => exact hstop
    | some close => exact lt_of_innerClose? hsealed (ClassBody.initializerEnd?_eq_some hend)
  · intro r s r' s' hresumes head hhead
    exact hresumes.lt_iff (h.initializer_bounds_rest hsealed hcontained hbounds hc hhead).1
  · intro r s r' s' hresumes head hhead hlate
    obtain ⟨hstart, hbrace, hlt⟩ := h.initializer_bounds_rest hsealed hcontained hbounds hc hhead
    unfold ClassBody.decideInitializer
    rw [h.initializerEnd?_rest hsealed htaken hA atBoundary (by omega)]
    cases ClassBody.initializerEnd? rest ⟨name, o, c⟩ B atBoundary head with
    | none => exact ⟨rfl, Or.inl rfl⟩
    | some close =>
      refine ⟨?_, Or.inl (by simp only [Option.map_some]; omega)⟩
      simp only [Option.map_some, InitializerHead.moved, List.map_cons, List.map_nil, Region.moved]
      rw [show close + w + 1 = close + 1 + w by omega]

end Taken

omit h in
include hcontained hbounds in
theorem within_initializerRegions_piece {taken : List Region} {atBoundary : Bool} {r : Region}
    (hr : r ∈ ClassBody.initializerRegions alone ⟨name, o, o + w + 2⟩ taken atBoundary (o + 1)
      (alone.text.findBetween Text.beginsLine recognise (o + 1) (o + w + 2))) :
    r.Within (o + 1) (o + w + 1) := by
  rw [ClassBody.initializerRegions_eq_sweep] at hr
  obtain ⟨r', s', head, hhead, hfound⟩ := exists_of_mem_sweep hr
  obtain ⟨hstart, hbrace, -, -⟩ := initializer_bounds_piece hsealed hcontained hbounds hhead
  obtain ⟨close, hclose, rfl⟩ := ClassBody.mem_decideInitializer hfound
  have hbehind := (Source.closeOf?_bounds (ClassBody.innerClose?_eq_some hclose).1).1
  exact ⟨hstart, by simp only; omega, lt_of_innerClose? hsealed hclose⟩

include hcontained hbounds in
theorem within_initializerRegions_rest (hc : o + 1 < c) {taken : List Region} {atBoundary : Bool}
    {r : Region}
    (hr : r ∈ ClassBody.initializerRegions rest ⟨name, o, c⟩ taken atBoundary (o + 1)
      (rest.text.findBetween Text.beginsLine recognise (o + 1) c)) : r.Within (o + 2) c := by
  rw [ClassBody.initializerRegions_eq_sweep] at hr
  obtain ⟨r', s', head, hhead, hfound⟩ := exists_of_mem_sweep hr
  obtain ⟨hstart, hbrace, -⟩ := h.initializer_bounds_rest hsealed hcontained hbounds hc hhead
  obtain ⟨close, hclose, rfl⟩ := ClassBody.mem_decideInitializer hfound
  obtain ⟨hclosing, hlt⟩ := ClassBody.innerClose?_eq_some hclose
  have hbehind := (Source.closeOf?_bounds hclosing).1
  exact ⟨hstart, by simp only; omega, hlt⟩

end Spliced

/-! ### All regions -/

namespace ClassBody

variable (src : Source) (body : ClassBody)

def types : List Region :=
  body.typeRegions src (body.openBrace + 1)
    (TypeHeader.allBetween src.text (body.openBrace + 1) body.closeBrace)

def statics : List Region :=
  body.initializerRegions src (body.types src) false (body.openBrace + 1)
    (InitializerHead.staticBetween src.text (body.openBrace + 1) body.closeBrace)

def instances : List Region :=
  body.initializerRegions src (body.types src ++ body.statics src) true (body.openBrace + 1)
    (InitializerHead.instanceBetween src.text (body.openBrace + 1) body.closeBrace)

theorem skippedRegions_perm : (body.skippedRegions src).Perm
    (body.types src ++ body.statics src ++ body.instances src) :=
  List.mergeSort_perm ..

theorem pairwise_skippedRegions :
    (body.skippedRegions src).Pairwise fun r s ↦ r.comesBefore s = true := by
  refine List.pairwise_mergeSort (fun r s t ↦ ?_) (fun r s ↦ ?_) _
  · simp only [Region.comesBefore_iff]
    omega
  · simp only [Bool.or_eq_true, Region.comesBefore_iff]
    omega

end ClassBody

namespace Spliced

variable {whole alone rest : Source} {name : Text} {o w c : Nat}
  (h : Spliced whole alone rest o w) (hsealed : ClassBody.Sealed alone ⟨name, o, o + w + 2⟩)

include hsealed

theorem within_skippedRegions_piece {r : Region}
    (hr : r ∈ ClassBody.skippedRegions alone ⟨name, o, o + w + 2⟩) :
    r.Within (o + 1) (o + w + 1) := by
  rcases List.mem_append.mp ((ClassBody.skippedRegions_perm ..).mem_iff.mp hr) with hr | hr
  · rcases List.mem_append.mp hr with hr | hr
    · exact within_typeRegions_piece hsealed hr
    · exact within_initializerRegions_piece hsealed (contained_static hsealed)
        InitializerHead.static?_bounds hr
  · exact within_initializerRegions_piece hsealed (contained_instance _)
      InitializerHead.instance?_bounds hr

include h

theorem within_skippedRegions_rest (hc : o + 1 < c) {r : Region}
    (hr : r ∈ ClassBody.skippedRegions rest ⟨name, o, c⟩) : r.Within (o + 2) c := by
  rcases List.mem_append.mp ((ClassBody.skippedRegions_perm ..).mem_iff.mp hr) with hr | hr
  · rcases List.mem_append.mp hr with hr | hr
    · exact h.within_typeRegions_rest hsealed hc hr
    · exact h.within_initializerRegions_rest hsealed (contained_static hsealed)
        InitializerHead.static?_bounds hc hr
  · exact h.within_initializerRegions_rest hsealed (contained_instance _)
      InitializerHead.instance?_bounds hc hr

theorem types_whole (hc : o + 1 < c) : ClassBody.types whole ⟨name, o, c + w⟩ =
    ClassBody.types alone ⟨name, o, o + w + 2⟩ ++
      (ClassBody.types rest ⟨name, o, c⟩).map (Region.moved w) :=
  h.typeRegions_whole hsealed hc

theorem statics_whole (hc : o + 1 < c) : ClassBody.statics whole ⟨name, o, c + w⟩ =
    ClassBody.statics alone ⟨name, o, o + w + 2⟩ ++
      (ClassBody.statics rest ⟨name, o, c⟩).map (Region.moved w) :=
  h.initializerRegions_whole hsealed (contained_static hsealed) InitializerHead.static?_bounds
    (List.Perm.of_eq (h.types_whole hsealed hc)) (fun _ hr ↦ within_typeRegions_piece hsealed hr)
    (fun _ hr ↦ h.within_typeRegions_rest hsealed hc hr) false hc

omit h hsealed in
theorem append_append_perm {α : Type} (a b c d : List α) :
    (a ++ b ++ (c ++ d)).Perm (a ++ c ++ (b ++ d)) := by
  rw [List.append_assoc, List.append_assoc]
  exact (List.perm_append_comm_assoc b c d).append_left a

theorem instances_whole (hc : o + 1 < c) : ClassBody.instances whole ⟨name, o, c + w⟩ =
    ClassBody.instances alone ⟨name, o, o + w + 2⟩ ++
      (ClassBody.instances rest ⟨name, o, c⟩).map (Region.moved w) := by
  refine h.initializerRegions_whole hsealed (contained_instance _) InitializerHead.instance?_bounds
    ?_ (fun r hr ↦ ?_) (fun r hr ↦ ?_) true hc
  · rw [h.types_whole hsealed hc, h.statics_whole hsealed hc, List.map_append]
    exact append_append_perm ..
  · exact within_skippedRegions_piece hsealed
      ((ClassBody.skippedRegions_perm ..).mem_iff.mpr (List.mem_append_left _ hr))
  · exact h.within_skippedRegions_rest hsealed hc
      ((ClassBody.skippedRegions_perm ..).mem_iff.mpr (List.mem_append_left _ hr))

/-- The regions of the whole, in order, are those of the piece and behind them those of the rest. -/
theorem skippedRegions_whole (hc : o + 1 < c) :
    ClassBody.skippedRegions whole ⟨name, o, c + w⟩ =
      ClassBody.skippedRegions alone ⟨name, o, o + w + 2⟩ ++
        (ClassBody.skippedRegions rest ⟨name, o, c⟩).map (Region.moved w) := by
  refine List.Perm.eq_of_pairwise ?_ (ClassBody.pairwise_skippedRegions ..) ?_ ?_
  · rintro ⟨a, b⟩ ⟨a', b'⟩ - - hle hge
    simp only [Region.comesBefore_iff] at hle hge
    simp only [Region.mk.injEq]
    omega
  · refine List.pairwise_append.mpr ⟨ClassBody.pairwise_skippedRegions .., ?_, ?_⟩
    · refine List.pairwise_map.mpr ((ClassBody.pairwise_skippedRegions ..).imp fun {r s} hrs ↦ ?_)
      simpa [Region.comesBefore_iff, Region.moved] using hrs
    · intro r hr s hs
      obtain ⟨own, hown, rfl⟩ := List.mem_map.mp hs
      obtain ⟨-, hshort, hstop⟩ := within_skippedRegions_piece hsealed hr
      obtain ⟨hstart, -, -⟩ := h.within_skippedRegions_rest hsealed hc hown
      simp only [Region.comesBefore_iff, Region.moved]
      omega
  · refine (ClassBody.skippedRegions_perm ..).trans (List.Perm.trans ?_
      ((ClassBody.skippedRegions_perm ..).append
        ((ClassBody.skippedRegions_perm ..).map _)).symm)
    rw [h.types_whole hsealed hc, h.statics_whole hsealed hc, h.instances_whole hsealed hc,
      List.map_append, List.map_append]
    refine List.Perm.trans ((append_append_perm ..).append_right _) ?_
    exact append_append_perm ..

end Spliced

end MemberOrder
