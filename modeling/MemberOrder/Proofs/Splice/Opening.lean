import MemberOrder.Proofs.Splice.Members

/-!
The opening of a class: a text up to the brace that opens the body of the class it declares first.
A header before that brace ends before it, and the brace is the first one behind the class's header,
so the opening alone decides which class a source with this opening declares first.
-/

set_option autoImplicit false

namespace MemberOrder

namespace Text

theorem identifier?_append_of_mem {t : Text} {c : Char} (hmem : c ∈ t)
    (hstart : isNameStart c = false) (hpart : isNamePart c = false) (u : Text) :
    identifier? (t ++ u) = identifier? t := by
  obtain ⟨d, t, rfl⟩ := List.exists_cons_of_ne_nil (List.ne_nil_of_mem hmem)
  rw [List.cons_append, identifier?, identifier?]
  rcases List.mem_cons.mp hmem with rfl | hmem
  · rw [if_neg (by simp [hstart]), if_neg (by simp [hstart])]
  · rw [(takeWhile_append_of_exists ⟨c, hmem, hpart⟩ u).1]

theorem prefix_of_identifier? {t name : Text} (h : identifier? t = some name) :
    name <+: t ∧ '\x7b' ∉ name := by
  cases t with
  | nil => cases h
  | cons c t =>
    rw [identifier?] at h
    split_ifs at h with hstart
    cases h
    refine ⟨(List.prefix_cons_inj c).mpr (List.takeWhile_prefix _), fun hmem ↦ ?_⟩
    rcases List.mem_cons.mp hmem with rfl | hmem
    · exact absurd hstart (by decide)
    · exact absurd (List.mem_takeWhile_imp hmem) (by decide)

end Text

namespace TypeHeader

/-- A brace behind a place decides what header stands there. -/
theorem at?_append_of_brace {t : Text} (h : '\x7b' ∈ t) (position : Nat) (u : Text) :
    at? position (t ++ u) = at? position t := by
  have hlocal (kind : TypeKind) : ofKind? kind position (t ++ u) = ofKind? kind position t := by
    have hword : '\x7b' ∉ kind.keyword := by cases kind <;> decide
    unfold ofKind?
    rw [Text.isPrefixOf_append_of_mem h hword]
    split_ifs with hkeyword
    · obtain ⟨rest, rfl⟩ := List.isPrefixOf_iff_prefix.mp hkeyword
      have hrest : '\x7b' ∈ rest := (List.mem_append.mp h).resolve_left hword
      have hblank : Text.isBlank '\x7b' = false := by decide
      have hgap := (takeWhile_append_of_exists ⟨'\x7b', hrest, hblank⟩ u).1
      have hbehind : '\x7b' ∈ rest.drop (rest.takeWhile Text.isBlank).length := by
        rw [drop_length_takeWhile]
        rw [← List.takeWhile_append_dropWhile (p := Text.isBlank) (l := rest)] at hrest
        refine (List.mem_append.mp hrest).resolve_left fun hmem ↦ ?_
        exact Bool.false_ne_true (hblank.symm.trans (List.mem_takeWhile_imp hmem))
      simp only [List.append_assoc, List.drop_left]
      rw [hgap, List.drop_append_of_le_length (List.takeWhile_sublist _).length_le,
        Text.identifier?_append_of_mem hbehind (by decide) (by decide)]
    · rfl
  simp only [at?, hlocal]

/-- A header is a beginning of the text in which no brace stands. -/
theorem exists_of_at? {position : Nat} {t : Text} {header : TypeHeader}
    (h : at? position t = some header) :
    ∃ s, s <+: t ∧ '\x7b' ∉ s ∧ header.stop = position + s.length := by
  obtain ⟨kind, -, hkind⟩ := List.exists_of_findSome?_eq_some h
  unfold ofKind? at hkind
  split_ifs at hkind with hkeyword
  simp only at hkind
  split_ifs at hkind
  obtain ⟨name, hname, rfl⟩ := Option.map_eq_some_iff.mp hkind
  obtain ⟨rest, rfl⟩ := List.isPrefixOf_iff_prefix.mp hkeyword
  rw [List.drop_left, drop_length_takeWhile] at hname
  rw [List.drop_left]
  obtain ⟨hbegins, hbrace⟩ := Text.prefix_of_identifier? hname
  refine ⟨kind.keyword ++ (rest.takeWhile Text.isBlank ++ name), ?_, ?_, ?_⟩
  · rw [List.prefix_append_right_inj]
    nth_rewrite 2 [← List.takeWhile_append_dropWhile (p := Text.isBlank) (l := rest)]
    rwa [List.prefix_append_right_inj]
  · simp only [List.mem_append, not_or]
    refine ⟨by cases kind <;> decide, fun hmem ↦ ?_, hbrace⟩
    exact absurd (List.mem_takeWhile_imp hmem) (by decide)
  · simp only [List.length_append]
    omega

/-- The headers of a text that ends with a brace, when more follows it. -/
theorem allBetween_append {pre : Text} (hbrace : pre.getLast? = some '\x7b') (u : Text) :
    allBetween (pre ++ u) 0 (pre ++ u).length =
      allBetween pre 0 pre.length ++
        Text.findAll begins at? (some '\x7b') pre.length u := by
  have hall (t : Text) : t.extract 0 t.length = t := by simp
  unfold allBetween Text.findBetween
  rw [hall, hall, Text.findAll_append, hbrace, Nat.zero_add]
  congr 1
  refine Text.findAll_congr (fun s hs hne p ↦ at?_append_of_brace ?_ p u) _ _
  obtain ⟨front, rfl⟩ := hs
  rw [List.getLast?_append_of_ne_nil _ hne] at hbrace
  exact List.mem_of_getLast? hbrace

theorem apart_append {front : List TypeHeader} {n resume : Nat} (hresume : resume ≤ n)
    (hfront : ∀ header ∈ front, header.stop ≤ n) (back : List TypeHeader) :
    ∃ resume' ≤ n, apart resume (front ++ back) =
      apart resume front ++ apart resume' back := by
  induction front generalizing resume with
  | nil => exact ⟨resume, hresume, rfl⟩
  | cons header front ih =>
    have hrest (other : TypeHeader) (hother : other ∈ front) :=
      hfront other (List.mem_cons_of_mem _ hother)
    rw [List.cons_append, apart, apart]
    split_ifs with hearly
    · exact ih hresume hrest
    · obtain ⟨resume', hle, happart⟩ := ih (hfront header List.mem_cons_self) hrest
      exact ⟨resume', hle, by rw [happart, List.cons_append]⟩

end TypeHeader

namespace Source

variable {pre : Text} {o : Nat} (hlength : pre.length = o + 1)
  (hopens : (ofText pre).glyphs[o]? = some (Glyph.code '\x7b'))

include hlength hopens

theorem getLast?_of_opens : pre.getLast? = some '\x7b' := by
  have hchar : (ofText pre).text[o]? = some '\x7b' := by
    rw [← map_char_glyphs, List.getElem?_map, hopens]
    rfl
  rw [List.getLast?_eq_getElem?, hlength]
  exact hchar

/-- Behind the brace that ends an opening the reader is in code. -/
theorem glyphs_append (u : Text) :
    (ofText (pre ++ u)).glyphs = (ofText pre).glyphs ++ scan .code u := by
  have hlast := getLast?_of_opens hlength hopens
  have hmode : modeAfter .code pre = .code := by
    refine modeAfter_eq_code ?_
    have hcode : (scan .code pre).getLast? = some (Glyph.code '\x7b') := by
      rw [List.getLast?_eq_getElem?, length_scan, hlength]
      exact hopens
    rw [lastIsCode, hcode]
    rfl
  have hends : EndsSign pre := by
    intro c hc
    rw [hlast] at hc
    cases hc
    decide
  have happend : scan .code (pre ++ u) = _ := scan_append u hends
  rwa [hmode] at happend

theorem agreesUpTo_append (u : Text) : AgreesUpTo (o + 1) (ofText (pre ++ u)) (ofText pre) := by
  have hsize : (ofText pre).glyphs.length = o + 1 := by
    rw [length_glyphs]
    exact hlength
  rw [AgreesUpTo, glyphs_append hlength hopens, List.take_append_of_le_length hsize.ge]

/-- A header before the brace opens its body at it or earlier, whatever comes behind the brace. -/
theorem openBrace?_append {header : TypeHeader} (hstop : header.stop ≤ o) (u : Text) :
    header.openBrace? (ofText (pre ++ u)) (ofText (pre ++ u)).length =
      header.openBrace? (ofText pre) (ofText pre).length := by
  have hagrees := agreesUpTo_append hlength hopens u
  have hsize : (ofText pre).length = o + 1 := ((ofText pre).length_glyphs).trans hlength
  have hlonger : o + 1 ≤ (ofText (pre ++ u)).length := by
    rw [Source.length, glyphs_append hlength hopens, List.length_append]
    exact hsize.ge.trans (Nat.le_add_right _ _)
  unfold TypeHeader.openBrace?
  rw [hagrees.isCodeBetween (by omega), hsize]
  split_ifs with hcode
  · obtain ⟨i, hfound⟩ : ∃ i, (ofText pre).firstCode? ['\x7b', ';'] header.stop (o + 1) = some i := by
      unfold firstCode?
      refine Option.isSome_iff_exists.mp ?_
      rw [Option.isSome_map, List.findIdx?_isSome]
      refine List.any_eq_true.mpr ⟨Glyph.code '\x7b', ?_, by decide⟩
      rw [extract_eq_concat hopens hstop]
      exact List.mem_append_right _ List.mem_cons_self
    obtain ⟨hwhole, -, hlt⟩ := hagrees.firstCode? hlonger hfound
    rw [hwhole, hfound, Option.filter_some, Option.filter_some, hagrees.text_getElem? hlt]
  · rfl

omit hlength hopens in
theorem le_of_openBrace? {src : Source} {header : TypeHeader} {limit brace : Nat}
    (h : header.openBrace? src limit = some brace) :
    header.stop ≤ brace ∧ src.glyphs[brace]? = some (Glyph.code '\x7b') := by
  unfold TypeHeader.openBrace? at h
  split_ifs at h
  obtain ⟨hfound, hchar⟩ := Option.filter_eq_some_iff.mp h
  obtain ⟨i, hi, rfl⟩ := Option.map_eq_some_iff.mp hfound
  obtain ⟨hlt, hcode, -⟩ := List.findIdx?_eq_some_iff_getElem.mp hi
  refine ⟨Nat.le_add_right _ _, ?_⟩
  have hglyph := List.getElem?_eq_getElem hlt
  generalize (src.glyphs.extract header.stop limit)[i] = g at hglyph hcode
  rw [List.extract_eq_take_drop, List.getElem?_take, List.getElem?_drop] at hglyph
  split_ifs at hglyph
  rw [← src.map_char_glyphs, List.getElem?_map, hglyph] at hchar
  obtain ⟨char, isCode⟩ := g
  simp_all [Glyph.code]

/-- What class a text declares first is decided by an opening, or else its brace stands behind it. -/
theorem firstClass?_append (u : Text) :
    ∃ later, (ofText (pre ++ u)).firstClass? = ((ofText pre).firstClass?).or later ∧
      ∀ found ∈ later, o < found.2 := by
  have hlast := getLast?_of_opens hlength hopens
  have hsize (t : Text) : (ofText t).length = t.length := (ofText t).length_glyphs
  have hfront (header : TypeHeader) (hheader : header ∈ TypeHeader.allBetween pre 0 pre.length) :
      header.stop ≤ o := by
    obtain ⟨p, -, hp, -, hat⟩ := Text.exists_of_mem_findBetween hheader
    obtain ⟨s, hs, hbrace, hstop⟩ := TypeHeader.exists_of_at? hat
    rw [List.extract_eq_take_drop, ← List.length_drop, List.take_length] at hs
    have hmem : '\x7b' ∈ pre.drop p := by
      rw [← List.take_append_drop p pre, List.getLast?_append_of_ne_nil _
        (List.drop_eq_nil_iff.not.mpr (Nat.not_le.mpr hp))] at hlast
      exact List.mem_of_getLast? hlast
    have hne : s.length ≠ (pre.drop p).length := fun heq ↦ hbrace (hs.eq_of_length heq ▸ hmem)
    have hle := hs.length_le
    rw [List.length_drop] at hne hle
    omega
  obtain ⟨resume, -, happart⟩ := TypeHeader.apart_append (Nat.zero_le o) hfront
    (Text.findAll TypeHeader.begins TypeHeader.at? (some '\x7b') pre.length u)
  have hsame (header : TypeHeader)
      (hheader : header ∈ (TypeHeader.apart 0 (TypeHeader.allBetween pre 0 pre.length)).filter
        (·.kind == .classType)) :
      ((header.openBrace? (ofText (pre ++ u)) (pre ++ u).length).map fun brace ↦
          (header.name, brace)) =
        ((header.openBrace? (ofText pre) pre.length).map fun brace ↦ (header.name, brace)).map
          id := by
    have hmem := (TypeHeader.apart_sublist ..).subset (List.mem_of_mem_filter hheader)
    rw [Option.map_id, ← hsize, openBrace?_append hlength hopens (hfront header hmem), hsize]
    rfl
  unfold firstClass?
  simp only [hsize]
  change ∃ later, ((TypeHeader.apart 0 (TypeHeader.allBetween (pre ++ u) 0 (pre ++ u).length)).filter
    _).findSome? _ = _ ∧ _
  rw [TypeHeader.allBetween_append hlast, happart, List.filter_append, List.findSome?_append,
    findSome?_eq_map hsame, Option.map_id]
  refine ⟨_, rfl, fun found hfound ↦ ?_⟩
  obtain ⟨header, hheader, hmapped⟩ := List.exists_of_findSome?_eq_some hfound
  obtain ⟨brace, hbrace, rfl⟩ := Option.map_eq_some_iff.mp hmapped
  obtain ⟨i, -, -, hat⟩ := Text.exists_of_mem_findAll
    ((TypeHeader.apart_sublist ..).subset (List.mem_of_mem_filter hheader))
  obtain ⟨hstart, hlt, -⟩ := TypeHeader.at?_bounds hat
  have hstop := (le_of_openBrace? hbrace).1
  simp only
  omega

end Source

/-- A text up to the brace at `o` that opens the body of the class it declares first. -/
structure Opening (pre name : Text) (o : Nat) : Prop where
  length_eq : pre.length = o + 1
  opens : (Source.ofText pre).glyphs[o]? = some (Glyph.code '\x7b')
  firstClass_eq : (Source.ofText pre).firstClass? = some (name, o)

/-- A piece alone in the body of a class with the given opening. -/
def pieceAlone (pre piece : Text) : Source := Source.ofText (pre ++ (piece ++ ['\n', '\x7d']))

/-- The body of a class that holds a piece alone. -/
def bodyOfPiece (name : Text) (o : Nat) (piece : Text) : ClassBody :=
  ⟨name, o, o + piece.length + 2⟩

namespace Opening

variable {pre name : Text} {o : Nat}

theorem of_firstClass? {text : Text} (h : (Source.ofText text).firstClass? = some (name, o)) :
    Opening (text.take (o + 1)) name o := by
  obtain ⟨header, -, hmapped⟩ := List.exists_of_findSome?_eq_some h
  obtain ⟨brace, hbrace, hpair⟩ := Option.map_eq_some_iff.mp hmapped
  cases hpair
  have hopens := (Source.le_of_openBrace? hbrace).2
  have hlt : o < text.length :=
    ((Source.ofText text).length_glyphs) ▸ (List.getElem?_eq_some_iff.mp hopens).1
  have hlength : (text.take (o + 1)).length = o + 1 := List.length_take_of_le hlt
  have hchar : text[o]? = some '\x7b' := by
    have hmap := congrArg (Option.map Glyph.char) hopens
    rwa [← List.getElem?_map, Source.map_char_glyphs] at hmap
  have hends : Source.EndsSign (text.take (o + 1)) := by
    intro c hc
    rw [List.getLast?_eq_getElem?, hlength, List.getElem?_take_of_lt (by omega)] at hc
    cases hchar.symm.trans hc
    decide
  have hpre : (Source.ofText (text.take (o + 1))).glyphs[o]? = some (Glyph.code '\x7b') := by
    have hscan : (Source.ofText text).glyphs = (Source.ofText (text.take (o + 1))).glyphs ++
        Source.scan (Source.modeAfter .code (text.take (o + 1))) (text.drop (o + 1)) := by
      refine Eq.trans ?_ (Source.scan_append (text.drop (o + 1)) hends)
      rw [List.take_append_drop]
      rfl
    rwa [hscan, List.getElem?_append_left] at hopens
    rw [Source.length_glyphs]
    exact hlength.ge
  refine ⟨hlength, hpre, ?_⟩
  obtain ⟨later, hfirst, hlater⟩ := Source.firstClass?_append hlength hpre (text.drop (o + 1))
  rw [List.take_append_drop, h] at hfirst
  cases hclass : (Source.ofText (text.take (o + 1))).firstClass? with
  | some found => rw [hfirst, hclass, Option.some_or]
  | none =>
    rw [hclass, Option.none_or] at hfirst
    exact absurd (hlater (header.name, o) hfirst.symm) (Nat.lt_irrefl o)

variable (h : Opening pre name o)

include h

theorem firstClass?_append (u : Text) :
    (Source.ofText (pre ++ u)).firstClass? = some (name, o) := by
  obtain ⟨later, hfirst, -⟩ := Source.firstClass?_append h.length_eq h.opens u
  rw [hfirst, h.firstClass_eq, Option.some_or]

theorem glyphs_append (u : Text) :
    (Source.ofText (pre ++ u)).glyphs = (Source.ofText pre).glyphs ++ Source.scan .code u :=
  Source.glyphs_append h.length_eq h.opens u

theorem length_glyphs : (Source.ofText pre).glyphs.length = o + 1 :=
  (Source.length_glyphs _).trans h.length_eq

/-- A sealed piece is read as it is alone, and what is behind it as if it were not there. -/
theorem spliced {piece : Text}
    (hsealed : (bodyOfPiece name o piece).Sealed (pieceAlone pre piece)) (z : Text) :
    Spliced (Source.ofText (pre ++ (piece ++ '\n' :: z))) (pieceAlone pre piece)
      (Source.ofText (pre ++ '\n' :: z)) o piece.length := by
  have hends : Source.EndsSign (piece ++ ['\n']) := by
    intro c hc
    rw [List.getLast?_append, List.getLast?_singleton, Option.some_or] at hc
    cases hc
    decide
  have hglyphs (u : Text) : (Source.ofText (pre ++ (piece ++ '\n' :: u))).glyphs =
      (Source.ofText pre).glyphs ++ (Source.scan .code (piece ++ ['\n']) ++
        Source.scan (Source.modeAfter .code (piece ++ ['\n'])) u) := by
    rw [h.glyphs_append, ← Source.scan_append u hends, List.append_assoc, List.singleton_append]
  have hlength : (Source.scan .code (piece ++ ['\n'])).length = piece.length + 1 := by
    rw [Source.length_scan, List.length_append, List.length_singleton]
  have hfeed : (Source.scan .code (piece ++ ['\n']))[piece.length]? = some (Glyph.code '\n') := by
    have hfeed : (pieceAlone pre piece).glyphs[o + piece.length + 1]? = some (Glyph.code '\n') :=
      hsealed.feed
    rw [pieceAlone, hglyphs, List.getElem?_append_right (by rw [h.length_glyphs]; omega),
      h.length_glyphs, List.getElem?_append_left (by omega)] at hfeed
    rwa [show o + piece.length + 1 - (o + 1) = piece.length by omega] at hfeed
  have hmode : Source.modeAfter .code (piece ++ ['\n']) = .code := by
    refine Source.modeAfter_eq_code ?_
    rw [Source.lastIsCode, List.getLast?_eq_getElem?, hlength, Nat.add_sub_cancel, hfeed]
    rfl
  rw [hmode] at hglyphs
  refine ⟨?_, ?_, ?_⟩
  · have htake (u : Text) : (Source.ofText (pre ++ (piece ++ '\n' :: u))).glyphs.take
        (o + piece.length + 2) = (Source.ofText pre).glyphs ++ Source.scan .code (piece ++ ['\n']) := by
      rw [hglyphs, ← List.append_assoc, List.take_left']
      rw [List.length_append, h.length_glyphs, hlength]
      omega
    exact (htake z).trans (htake ['\x7d']).symm
  · have hlast : (Source.scan .code (piece ++ ['\n'])).drop piece.length = [Glyph.code '\n'] := by
      obtain ⟨hlt, hchar⟩ := List.getElem?_eq_some_iff.mp hfeed
      rw [List.drop_eq_getElem_cons hlt, hchar, List.drop_eq_nil_iff.mpr hlength.le]
    rw [Source.AgreesFrom, hglyphs, h.glyphs_append, List.drop_left' h.length_glyphs,
      ← List.drop_drop, List.drop_left' h.length_glyphs,
      List.drop_append_of_le_length (by omega), hlast]
    rfl
  · rw [h.glyphs_append, List.getElem?_append_left (by rw [h.length_glyphs]; omega)]
    exact h.opens

end Opening

end MemberOrder
