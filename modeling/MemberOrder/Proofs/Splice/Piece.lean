import MemberOrder.Proofs.Splice.Regions

/-!
The methods of the piece in a spliced body. What a head of the piece declares, how far its method
reaches and which lines lead it is decided inside the piece, so the search through the whole body
decides about it as the search through the piece alone does.
-/

set_option autoImplicit false

namespace MemberOrder

namespace ClassBody

theorem leadingFloor_append (A B : List Region) (previous start : Nat) :
    leadingFloor (A ++ B) previous start = leadingFloor B (leadingFloor A previous start) start :=
  List.foldl_append

/-- Regions that end behind a place do not keep lines from leading it. -/
theorem leadingFloor_of_lt {skipped : List Region} {start : Nat}
    (h : ∀ r ∈ skipped, start < r.stop) (previous : Nat) :
    leadingFloor skipped previous start = previous := by
  unfold leadingFloor
  induction skipped with
  | nil => rfl
  | cons r rest ih =>
    rw [List.foldl_cons, if_neg (Nat.not_le.mpr (h r List.mem_cons_self))]
    exact ih fun s hs ↦ h s (List.mem_cons_of_mem _ hs)

end ClassBody

namespace Spliced

variable {whole alone rest : Source} {name : Text} {o w c : Nat}
  (h : Spliced whole alone rest o w) (hsealed : ClassBody.Sealed alone ⟨name, o, o + w + 2⟩)

section Piece

variable {taken A B : List Region} {head : MethodHead}

include hsealed

omit h in
theorem head_bounds_piece
    (hhead : head ∈ MethodHead.allBetween alone.text (o + 1) (o + w + 2)) :
    o + 1 ≤ head.start ∧ head.start ≤ head.nameStart ∧ head.nameStart ≤ head.parenthesis ∧
      head.parenthesis < o + w + 1 := by
  obtain ⟨p, s, hp, -, hlength, hat⟩ := exists_of_mem_alone hsealed (contained_method _) hhead
  obtain ⟨rfl, hname, hparenthesis, hlt⟩ := MethodHead.at?_bounds hat
  omega

/-- Behind a closing parenthesis of the piece comes something that ends a statement or opens or
closes a block. -/
theorem exists_boundary_behind {close : Nat} (hstart : o ≤ close) (hstop : close < o + w + 1)
    (hclose : alone.glyphs[close]? = some (Glyph.code ')')) :
    ∃ d ∈ alone.text.extract (close + 1) (o + w + 2), Terminator.isClausePart d = false := by
  obtain ⟨g, hg, hboundary⟩ := exists_boundary hsealed
  rw [← extract_append_extract alone.glyphs (show o ≤ close + 1 by omega)
    (show close + 1 ≤ o + w + 1 by omega), extract_eq_concat hclose hstart, List.reverse_append,
    List.find?_append] at hg
  cases hlast : (alone.glyphs.extract (close + 1) (o + w + 1)).reverse.find? (·.isSolid) with
  | none =>
    rw [hlast, List.reverse_append, List.reverse_singleton, List.singleton_append,
      List.find?_cons_of_pos (by decide), Option.none_or, Option.some.injEq] at hg
    subst hg
    exact absurd hboundary (by decide)
  | some last =>
    rw [hlast, Option.some_or, Option.some.injEq] at hg
    subst hg
    have hmem := List.mem_reverse.mp (List.mem_of_find?_eq_some hlast)
    refine ⟨last.char, ?_, ?_⟩
    · rw [← Source.map_char_extract, extract_alone hsealed (close + 1) (by omega)]
      exact List.mem_map_of_mem (List.mem_append_left _ hmem)
    · simp only [ClassBody.isBoundary, Bool.or_eq_true, beq_iff_eq] at hboundary
      rcases hboundary with (hchar | hchar) | hchar <;> rw [hchar] <;> decide

include h

theorem declarationEnd?_piece (hc : o + 1 < c)
    (hhead : head ∈ MethodHead.allBetween alone.text (o + 1) (o + w + 2)) :
    ClassBody.declarationEnd? whole ⟨name, o, c + w⟩ head =
      ClassBody.declarationEnd? alone ⟨name, o, o + w + 2⟩ head := by
  obtain ⟨hstart, hname, hparenthesis, hlt⟩ := head_bounds_piece hsealed hhead
  obtain ⟨heq, hbefore⟩ := h.front.closeOf? hsealed.parentheses
    (show o + 1 ≤ head.parenthesis by omega) (show head.parenthesis < o + w + 2 by omega)
  unfold ClassBody.declarationEnd? Source.closingParenthesis?
  rw [heq]
  cases hclose : alone.closeOf? ['('] [')'] head.parenthesis with
  | none => rfl
  | some close =>
    have hstop := hbefore close hclose
    have hbehind := (Source.closeOf?_bounds hclose).1
    have hchar := Source.getElem?_of_closeOf? hclose
    have hinside : close < o + w + 1 := by
      refine Nat.lt_of_le_of_ne (Nat.le_of_lt_succ hstop) fun hlast ↦ ?_
      rw [hlast, alone_feed hsealed] at hchar
      exact absurd hchar (by decide)
    obtain ⟨d, hd, hpart⟩ := exists_boundary_behind hsealed (by omega) hinside hchar
    have hfind : Terminator.find? (whole.text.extract (close + 1) (c + w)) =
        Terminator.find? (alone.text.extract (close + 1) (o + w + 2)) := by
      rw [← extract_append_extract whole.text (show close + 1 ≤ o + w + 2 by omega)
        (show o + w + 2 ≤ c + w by omega), h.front.text_extract (Nat.le_refl _),
        Terminator.find?_append hd hpart]
    have hfilter (limit : Nat) (hlimit : close < limit) :
        (some close).filter (fun i ↦ decide (i < limit)) = some close := by
      rw [Option.filter_some, if_pos (by simpa using hlimit)]
    simp only [Option.bind_eq_bind]
    rw [hfilter _ (by omega), hfilter _ (by omega), Option.bind_some, Option.bind_some, hfind]
    cases hfound : Terminator.find? (alone.text.extract (close + 1) (o + w + 2)) with
    | none => rfl
    | some found =>
      obtain ⟨offset, terminator⟩ := found
      have hoffset := Terminator.offset_lt_of_find? hfound
      rw [List.extract_eq_take_drop, List.length_take] at hoffset
      simp only [Option.bind_some, h.front.isCodeAt (show close + 1 + offset < o + w + 2 by omega)]

variable (htaken : taken.Perm (A ++ B.map (Region.moved w))) (hB : ∀ r ∈ B, r.Within (o + 2) c)

include htaken hB

theorem methodEnd?_piece (hc : o + 1 < c) {ending : ClassBody.DeclarationEnd}
    (hstart : o + 1 ≤ ending.position) (hstop : ending.position < o + w + 2) :
    ClassBody.methodEnd? whole ⟨name, o, c + w⟩ taken ending =
      ClassBody.methodEnd? alone ⟨name, o, o + w + 2⟩ A ending := by
  unfold ClassBody.methodEnd?
  cases ending.terminator with
  | semicolon => rfl
  | body =>
    simp only
    rw [h.innerClose?_piece hsealed hc hstart hstop]
    cases hclose : ClassBody.innerClose? alone ⟨name, o, o + w + 2⟩ ending.position with
    | none => rfl
    | some close =>
      have hlt := lt_of_innerClose? hsealed hclose
      rw [Option.filter_some, Option.filter_some, isNone_holding?_piece htaken hB (by omega)]

theorem extent?_piece (hc : o + 1 < c)
    (hhead : head ∈ MethodHead.allBetween alone.text (o + 1) (o + w + 2)) :
    ClassBody.extent? whole ⟨name, o, c + w⟩ taken head =
      ClassBody.extent? alone ⟨name, o, o + w + 2⟩ A head := by
  obtain ⟨hstart, hname, hparenthesis, hlt⟩ := head_bounds_piece hsealed hhead
  have hadmits : ClassBody.admitsHead whole head = ClassBody.admitsHead alone head := by
    unfold ClassBody.admitsHead
    rw [h.front.isCodeBetween (show head.parenthesis + 1 ≤ o + w + 2 by omega)]
  unfold ClassBody.extent?
  rw [hadmits, h.declarationEnd?_piece hsealed hc hhead]
  cases hending : ClassBody.declarationEnd? alone ⟨name, o, o + w + 2⟩ head with
  | none => rfl
  | some ending =>
    obtain ⟨hclose, -, offset, hfind, hposition, -⟩ := ClassBody.declarationEnd?_eq_some hending
    have hbehind := (Source.closeOf?_bounds hclose).1
    have hoffset := Terminator.offset_lt_of_find? hfind
    rw [List.extract_eq_take_drop, List.length_take] at hoffset
    simp only [Option.bind_some]
    rw [h.methodEnd?_piece hsealed htaken hB hc (by omega) (by simp only at hoffset; omega)]

omit h htaken hB in
/-- A method of the piece ends before the line feed behind it. -/
theorem extent?_le_piece {ending : ClassBody.DeclarationEnd} {inner : Nat}
    (hextent : ClassBody.extent? alone ⟨name, o, o + w + 2⟩ A head = some (ending, inner)) :
    ending.position < inner ∧ inner ≤ o + w + 1 := by
  obtain ⟨-, hposition, hlt, hle⟩ := ClassBody.extent?_bounds hextent
  refine ⟨hlt, ?_⟩
  obtain ⟨-, hending, -, hinner⟩ := ClassBody.extent?_eq_some hextent
  obtain ⟨-, -, offset, hfind, hoffset, -⟩ := ClassBody.declarationEnd?_eq_some hending
  unfold ClassBody.methodEnd? at hinner
  cases hterminator : ending.terminator with
  | body =>
    rw [hterminator] at hinner
    obtain ⟨close, hclose, rfl⟩ := Option.map_eq_some_iff.mp hinner
    exact lt_of_innerClose? hsealed (Option.filter_eq_some_iff.mp hclose).1
  | semicolon =>
    rw [hterminator] at hinner
    cases hinner
    refine Nat.lt_of_le_of_ne (Nat.le_of_succ_le_succ hle) fun hlast ↦ ?_
    have hfirst := Terminator.first?_of_find? hfind
    have hfeed : alone.text[ending.position]? = some '\n' := by
      rw [hlast, ← alone.map_char_glyphs, List.getElem?_map, alone_feed hsealed]
      rfl
    rw [Terminator.first?, List.head?_drop, List.extract_eq_take_drop, List.getElem?_take,
      List.getElem?_drop, ← hoffset, hfeed] at hfirst
    split_ifs at hfirst
    · cases hfirst
    · cases hfirst

omit htaken hB in
/-- The comment behind a method of the piece ends in the piece. -/
theorem afterTrailingComment_piece (hc : o + 1 < c) {stop : Nat} (hstop : stop ≤ o + w + 1) :
    ClassBody.afterTrailingComment whole ⟨name, o, c + w⟩ stop =
        ClassBody.afterTrailingComment alone ⟨name, o, o + w + 2⟩ stop ∧
      ClassBody.afterTrailingComment alone ⟨name, o, o + w + 2⟩ stop ≤ o + w + 1 := by
  have hline : (whole.glyphs.extract stop (c + w)).takeWhile (·.char != '\n') =
      (alone.glyphs.extract stop (o + w + 2)).takeWhile (·.char != '\n') := by
    rw [← extract_append_extract whole.glyphs (show stop ≤ o + w + 2 by omega)
      (show o + w + 2 ≤ c + w by omega), h.front.extract (Nat.le_refl _),
      extract_alone hsealed stop hstop, List.append_assoc, List.singleton_append,
      takeWhile_append_of_neg _ (by decide), takeWhile_append_of_neg _ (by decide)]
  have hend : stop + ((alone.glyphs.extract stop (o + w + 2)).takeWhile (·.char != '\n')).length ≤
      o + w + 1 := by
    rw [extract_alone hsealed stop hstop, takeWhile_append_of_neg _ (by decide)]
    have hle : ((alone.glyphs.extract stop (o + w + 1)).takeWhile (·.char != '\n')).length ≤
        o + w + 1 - stop := by
      refine (List.takeWhile_sublist _).length_le.trans ?_
      rw [List.extract_eq_take_drop, List.length_take]
      exact Nat.min_le_left _ _
    omega
  unfold ClassBody.afterTrailingComment
  simp only
  rw [hline, h.front.isCodeAt (by omega), decide_eq_true (show _ < c + w by omega),
    decide_eq_true (show _ < o + w + 2 by omega)]
  refine ⟨rfl, ?_⟩
  split_ifs
  · exact hend
  · exact hstop

end Piece

section Decisions

variable {A B : List Region} {head : MethodHead} (hA : ∀ r ∈ A, r.Within (o + 1) (o + w + 1))
  (hB : ∀ r ∈ B, r.Within (o + 2) c)

include hB

omit h hsealed in
theorem holding?_piece {i : Nat} (hi : i ≤ o + w + 1) :
    Region.holding? (A ++ B.map (Region.moved w)) i = Region.holding? A i := by
  have hnone : Region.holding? (B.map (Region.moved w)) i = none := by
    rw [← Option.isNone_iff_eq_none]
    exact isNone_holding?_piece (A := []) (List.Perm.refl _) hB hi
  unfold Region.holding? at hnone ⊢
  rw [List.find?_append, hnone, Option.or_none]

omit h hsealed in
theorem leadingFloor_piece {start : Nat} (hstart : start ≤ o + w + 1) (previous : Nat) :
    ClassBody.leadingFloor (A ++ B.map (Region.moved w)) previous start =
      ClassBody.leadingFloor A previous start := by
  rw [ClassBody.leadingFloor_append, ClassBody.leadingFloor_of_lt]
  intro r hr
  obtain ⟨own, hown, rfl⟩ := List.mem_map.mp hr
  obtain ⟨hbehind, hshort, -⟩ := hB own hown
  simp only [Region.moved]
  omega

include h hsealed

theorem declared_piece (hc : o + 1 < c)
    (hhead : head ∈ MethodHead.allBetween alone.text (o + 1) (o + w + 2))
    {ending : ClassBody.DeclarationEnd} {inner previous : Nat} (place : Nat)
    (hextent : ClassBody.extent? alone ⟨name, o, o + w + 2⟩ A head = some (ending, inner))
    (hprevious : previous ≤ head.start) :
    ClassBody.declared whole ⟨name, o, c + w⟩ (A ++ B.map (Region.moved w)) previous place head
        ending inner =
      ClassBody.declared alone ⟨name, o, o + w + 2⟩ A previous place head ending inner := by
  obtain ⟨hstart, hname, hparenthesis, hlt⟩ := head_bounds_piece hsealed hhead
  obtain ⟨hposition, hinner⟩ := extent?_le_piece hsealed hextent
  obtain ⟨-, hclose, -, -⟩ := ClassBody.extent?_bounds hextent
  obtain ⟨hstop, hle⟩ := h.afterTrailingComment_piece hsealed hc hinner
  have hfloor : ClassBody.leadingFloor A previous head.start ≤ head.start :=
    ClassBody.leadingFloor_le hprevious
  have htext {a b : Nat} (hb : b ≤ o + w + 1) : whole.text.extract a b = alone.text.extract a b :=
    h.front.text_extract (by omega)
  unfold ClassBody.declared
  simp only
  rw [hstop, leadingFloor_piece hB (by omega), h.front.leadingLines (by omega) (by omega),
    h.front.calledNames (by omega) (by omega), htext (show ending.position + 1 ≤ _ by omega),
    htext (show ending.parenthesis + 1 ≤ _ by omega), htext hinner, htext hle]

include hA

/-- The search decides about a head of the piece by the piece alone. -/
theorem decideHead_piece (hc : o + 1 < c)
    (hhead : head ∈ MethodHead.allBetween alone.text (o + 1) (o + w + 2)) {r : Nat}
    {s : Nat × Nat} (hr : s.1 ≤ r ∧ r ≤ o + w + 1) (hlate : r ≤ head.start) :
    ClassBody.decideHead whole ⟨name, o, c + w⟩ (A ++ B.map (Region.moved w)) r s head =
        ClassBody.decideHead alone ⟨name, o, o + w + 2⟩ A r s head ∧
      (ClassBody.decideHead alone ⟨name, o, o + w + 2⟩ A r s head).2.2.1 ≤
          (ClassBody.decideHead alone ⟨name, o, o + w + 2⟩ A r s head).2.1 ∧
        (ClassBody.decideHead alone ⟨name, o, o + w + 2⟩ A r s head).2.1 ≤ o + w + 1 := by
  obtain ⟨hstart, hname, hparenthesis, hlt⟩ := head_bounds_piece hsealed hhead
  unfold ClassBody.decideHead
  rw [holding?_piece hB (by omega)]
  cases hregion : Region.holding? A head.start with
  | some region =>
    obtain ⟨hmem, hholds⟩ := Region.holding?_eq_some hregion
    have hstop := (hA region hmem).2.2
    exact ⟨rfl, by simp only; omega, hstop⟩
  | none =>
    simp only
    rw [h.front.braceDepth (by omega)]
    split_ifs with hdepth
    · exact ⟨rfl, hr⟩
    · rw [ClassBody.methodAt?_eq, ClassBody.methodAt?_eq,
        h.extent?_piece hsealed (List.Perm.refl _) hB hc hhead]
      cases hextent : ClassBody.extent? alone ⟨name, o, o + w + 2⟩ A head with
      | none => exact ⟨rfl, hr⟩
      | some extent =>
        obtain ⟨ending, inner⟩ := extent
        obtain ⟨hposition, hinner⟩ := extent?_le_piece hsealed hextent
        obtain ⟨hbehind, hclose, -, hclosed⟩ := ClassBody.extent?_bounds hextent
        obtain ⟨-, hle⟩ := h.afterTrailingComment_piece hsealed hc hinner
        obtain ⟨hge, -⟩ := ClassBody.afterTrailingComment_bounds alone hclosed
        simp only [Option.map_some]
        rw [h.declared_piece hsealed hB hc hhead s.2 hextent (by omega)]
        have hstarts (m : Method) (hm : m.start = head.start) :
            ClassBody.startsMember whole ⟨name, o, c + w⟩ m =
              ClassBody.startsMember alone ⟨name, o, o + w + 2⟩ m := by
          unfold ClassBody.startsMember Method.leadingStart
          simp only [h.front.lastSolid? (show m.start - m.leading.length ≤ o + w + 2 by omega)]
        rw [hstarts _ rfl]
        split_ifs with hmember
        · exact ⟨rfl, Nat.le_refl _, hle⟩
        · refine ⟨rfl, ?_, hle⟩
          change s.1 ≤ ClassBody.afterTrailingComment alone ⟨name, o, o + w + 2⟩ inner
          omega

end Decisions

end Spliced

end MemberOrder
