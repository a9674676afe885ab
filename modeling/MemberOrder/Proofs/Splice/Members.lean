import MemberOrder.Proofs.Splice.Piece

/-!
The methods of a spliced body are those of the piece, and behind them those of the rest, moved: the
search through the rest finds what it found in the rest alone. The lines that lead the first method
of the rest do not reach into the piece, since no line at the end of the piece could lead it.
-/

set_option autoImplicit false

namespace MemberOrder

/-- The method further on in the source, behind more methods. -/
def Method.moved (shift places : Nat) (m : Method) : Method :=
  { m with start := m.start + shift, stop := m.stop + shift, position := m.position + places }

def Finding.moved (shift places : Nat) : Finding → Finding
  | .method m => .method (m.moved shift places)
  | .inPlace signature => .inPlace signature

namespace ClassBody

def DeclarationEnd.moved (shift : Nat) (ending : DeclarationEnd) : DeclarationEnd :=
  ⟨ending.parenthesis + shift, ending.position + shift, ending.terminator⟩

theorem leadingFloor_cons_of_le {r : Region} {start : Nat} (h : r.stop ≤ start)
    (rest : List Region) (previous : Nat) :
    leadingFloor (r :: rest) previous start = leadingFloor rest (max previous r.stop) start := by
  unfold leadingFloor
  rw [List.foldl_cons, if_pos h]

theorem leadingFloor_cons_of_lt {r : Region} {start : Nat} (h : start < r.stop)
    (rest : List Region) (previous : Nat) :
    leadingFloor (r :: rest) previous start = leadingFloor rest previous start := by
  unfold leadingFloor
  rw [List.foldl_cons, if_neg (Nat.not_le.mpr h)]

theorem leadingFloor_moved (skipped : List Region) (shift previous start : Nat) :
    leadingFloor (skipped.map (Region.moved shift)) (previous + shift) (start + shift) =
      leadingFloor skipped previous start + shift := by
  induction skipped generalizing previous with
  | nil => rfl
  | cons r rest ih =>
    rw [List.map_cons]
    rcases Nat.lt_or_ge start r.stop with hlt | hge
    · rw [leadingFloor_cons_of_lt hlt, leadingFloor_cons_of_lt (Nat.add_lt_add_right hlt shift), ih]
    · rw [leadingFloor_cons_of_le hge, leadingFloor_cons_of_le (Nat.add_le_add_right hge shift),
        ← ih, Region.moved, Nat.add_max_add_right]

/-- Either no region ends between `previous` and a place, or where the search for leading lines
stopped before is of no matter. -/
theorem leadingFloor_moved_cases {skipped : List Region} {shift previous previous' : Nat}
    (start : Nat) (hbehind : ∀ r ∈ skipped, previous < r.stop)
    (hprevious : previous' ≤ previous + shift) :
    (leadingFloor skipped previous start = previous ∧
        leadingFloor (skipped.map (Region.moved shift)) previous' (start + shift) = previous') ∨
      (previous < leadingFloor skipped previous start ∧
        leadingFloor (skipped.map (Region.moved shift)) previous' (start + shift) =
          leadingFloor skipped previous start + shift) := by
  induction skipped with
  | nil => exact Or.inl ⟨rfl, rfl⟩
  | cons r rest ih =>
    have hstop := hbehind r List.mem_cons_self
    rw [List.map_cons]
    rcases Nat.lt_or_ge start r.stop with hlt | hge
    · rw [leadingFloor_cons_of_lt hlt, leadingFloor_cons_of_lt (Nat.add_lt_add_right hlt shift)]
      exact ih fun s hs ↦ hbehind s (List.mem_cons_of_mem _ hs)
    · have hmax : max previous' (r.moved shift).stop = r.stop + shift :=
        Nat.max_eq_right (hprevious.trans (Nat.add_le_add_right (Nat.le_of_lt hstop) shift))
      rw [leadingFloor_cons_of_le hge, leadingFloor_cons_of_le (Nat.add_le_add_right hge shift),
        Nat.max_eq_right (Nat.le_of_lt hstop), hmax, leadingFloor_moved]
      exact Or.inr ⟨Nat.lt_of_lt_of_le hstop (le_leadingFloor _ _), rfl⟩

theorem leadingFloor_of_le {skipped : List Region} {previous : Nat}
    (h : ∀ r ∈ skipped, r.stop ≤ previous) (start : Nat) :
    leadingFloor skipped previous start = previous := by
  induction skipped with
  | nil => rfl
  | cons r rest ih =>
    have hrest := ih fun s hs ↦ h s (List.mem_cons_of_mem _ hs)
    rcases Nat.lt_or_ge start r.stop with hlt | hge
    · rw [leadingFloor_cons_of_lt hlt, hrest]
    · rw [leadingFloor_cons_of_le hge, Nat.max_eq_left (h r List.mem_cons_self), hrest]

/-- Where all regions end before two places, these have the same floor. -/
theorem leadingFloor_congr {skipped : List Region} {i j : Nat}
    (h : ∀ r ∈ skipped, r.stop ≤ i ∧ r.stop ≤ j) (previous : Nat) :
    leadingFloor skipped previous i = leadingFloor skipped previous j := by
  induction skipped generalizing previous with
  | nil => rfl
  | cons r rest ih =>
    obtain ⟨hi, hj⟩ := h r List.mem_cons_self
    rw [leadingFloor_cons_of_le hi, leadingFloor_cons_of_le hj]
    exact ih (fun s hs ↦ h s (List.mem_cons_of_mem _ hs)) _

end ClassBody

namespace Spliced

variable {whole alone rest : Source} {name : Text} {o w c : Nat}
  (h : Spliced whole alone rest o w) (hsealed : ClassBody.Sealed alone ⟨name, o, o + w + 2⟩)
  {A B : List Region} {head : MethodHead} (hA : ∀ r ∈ A, r.Within (o + 1) (o + w + 1))
  (hB : ∀ r ∈ B, r.Within (o + 2) c)

include h

include hsealed in
theorem head_bounds_rest (hc : o + 1 < c)
    (hhead : head ∈ MethodHead.allBetween rest.text (o + 1) c) :
    o + 2 ≤ head.start ∧ head.start ≤ head.nameStart ∧ head.nameStart ≤ head.parenthesis := by
  obtain ⟨p, s, hp, -, hat⟩ := h.exists_of_mem_rest hsealed (contained_method _) hc hhead
  obtain ⟨rfl, hname, hparenthesis, -⟩ := MethodHead.at?_bounds hat
  exact ⟨hp, hname, hparenthesis⟩

theorem declarationEnd?_rest (hstart : o + 1 ≤ head.parenthesis) :
    ClassBody.declarationEnd? whole ⟨name, o, c + w⟩ (head.moved w) =
      (ClassBody.declarationEnd? rest ⟨name, o, c⟩ head).map
        (ClassBody.DeclarationEnd.moved w) := by
  unfold ClassBody.declarationEnd? Source.closingParenthesis? MethodHead.moved
  simp only [Option.bind_eq_bind]
  rw [h.back.closeOf? _ _ hstart]
  cases hclose : rest.closeOf? ['('] [')'] head.parenthesis with
  | none => rfl
  | some close =>
    have hbehind := (Source.closeOf?_bounds hclose).1
    simp only [Option.map_some, Option.filter_some, decide_eq_true_eq, Nat.add_lt_add_iff_right]
    split_ifs with hlt
    · simp only [Option.bind_some]
      rw [show close + w + 1 = close + 1 + w by omega, h.back.text_extract c (by omega)]
      cases Terminator.find? (rest.text.extract (close + 1) c) with
      | none => rfl
      | some found =>
        simp only [Option.bind_some]
        rw [show close + 1 + w + found.1 = close + 1 + found.1 + w by omega,
          h.back.isCodeAt (by omega)]
        split_ifs
        · rfl
        · rfl
    · rfl

include hA

theorem methodEnd?_rest {ending : ClassBody.DeclarationEnd} (hstart : o + 1 ≤ ending.position) :
    ClassBody.methodEnd? whole ⟨name, o, c + w⟩ (A ++ B.map (Region.moved w)) (ending.moved w) =
      (ClassBody.methodEnd? rest ⟨name, o, c⟩ B ending).map (· + w) := by
  unfold ClassBody.methodEnd? ClassBody.DeclarationEnd.moved
  simp only
  cases ending.terminator with
  | semicolon => simp only [Option.map_some, Option.some.injEq]; omega
  | body =>
    simp only
    rw [h.innerClose?_rest hstart]
    cases hclose : ClassBody.innerClose? rest ⟨name, o, c⟩ ending.position with
    | none => rfl
    | some close =>
      have hbehind := (Source.closeOf?_bounds (ClassBody.innerClose?_eq_some hclose).1).1
      simp only [Option.map_some, Option.filter_some]
      rw [isNone_holding?_rest (List.Perm.refl _) hA (by omega)]
      split_ifs
      · simp only [Option.map_some, Option.some.injEq]
        omega
      · rfl

theorem extent?_rest (hname : o + 1 ≤ head.nameStart) (hparenthesis : o + 1 ≤ head.parenthesis) :
    ClassBody.extent? whole ⟨name, o, c + w⟩ (A ++ B.map (Region.moved w)) (head.moved w) =
      (ClassBody.extent? rest ⟨name, o, c⟩ B head).map fun extent ↦
        (extent.1.moved w, extent.2 + w) := by
  have hadmits : ClassBody.admitsHead whole (head.moved w) = ClassBody.admitsHead rest head := by
    unfold ClassBody.admitsHead MethodHead.moved
    simp only
    rw [show head.parenthesis + w + 1 = head.parenthesis + 1 + w by omega,
      h.back.isCodeBetween _ hname]
  unfold ClassBody.extent?
  rw [hadmits, h.declarationEnd?_rest hparenthesis]
  split_ifs
  · cases hending : ClassBody.declarationEnd? rest ⟨name, o, c⟩ head with
    | none => rfl
    | some ending =>
      obtain ⟨hclose, -, offset, -, hposition, -⟩ := ClassBody.declarationEnd?_eq_some hending
      have hbehind := (Source.closeOf?_bounds hclose).1
      simp only [Option.map_some, Option.bind_some]
      rw [h.methodEnd?_rest hA (by omega)]
      unfold MethodHead.moved ClassBody.DeclarationEnd.moved
      simp only
      split_ifs
      · rfl
      · rw [Option.map_map, Option.map_map]
        rfl
  · rfl

omit hA in
theorem afterTrailingComment_rest {stop : Nat} (hstop : o + 1 ≤ stop) :
    ClassBody.afterTrailingComment whole ⟨name, o, c + w⟩ (stop + w) =
      ClassBody.afterTrailingComment rest ⟨name, o, c⟩ stop + w := by
  unfold ClassBody.afterTrailingComment
  simp only
  rw [h.back.extract c hstop]
  generalize (rest.glyphs.extract stop c).takeWhile (·.char != '\n') = line
  rw [show stop + w + line.length = stop + line.length + w by omega, h.back.isCodeAt (by omega)]
  simp only [Nat.add_lt_add_iff_right]
  split_ifs <;> rfl

/-! ### Leading lines -/

omit hA in
include hsealed in
/-- Lines that lead a method of the rest end with the piece, where no line of the piece leads what
comes behind it. -/
theorem leadingLines_across {floor start : Nat} (hfloor : floor ≤ o + w + 1)
    (hnone : alone.leadingLines floor (o + w + 2) = []) (hstart : o + 2 ≤ start) :
    whole.leadingLines floor (start + w) = rest.leadingLines (o + 1) start := by
  have hwhole : whole.glyphs.extract floor (start + w) =
      alone.glyphs.extract floor (o + w + 1) ++ [Glyph.code '\n'] ++
        rest.glyphs.extract (o + 2) start := by
    rw [← extract_alone hsealed floor hfloor, ← h.front.extract (Nat.le_refl _),
      ← h.back.extract start (show o + 1 ≤ o + 2 by omega),
      show o + 2 + w = o + w + 2 by omega, extract_append_extract _ (by omega) (by omega)]
  have hrest : rest.leadingLines (o + 1) start =
      (Source.leadingIn true (rest.glyphs.extract (o + 2) start)).map Glyph.char := by
    have hopen : rest.text[o]? = some '\x7b' := by
      rw [← rest.map_char_glyphs, List.getElem?_map, h.opens]
      rfl
    have hcons : rest.glyphs.extract (o + 1) start =
        [] ++ [Glyph.code '\n'] ++ rest.glyphs.extract (o + 2) start :=
      extract_eq_cons (h.rest_feed hsealed) hstart
    unfold Source.leadingLines
    simp only
    rw [hcons, hopen, Source.leadingIn_append rfl (by decide)]
  rw [hrest]
  unfold Source.leadingLines at hnone ⊢
  rw [extract_alone hsealed floor hfloor] at hnone
  rw [hwhole]
  cases floor with
  | zero =>
    simp only at hnone ⊢
    rw [Source.leadingIn_append rfl (List.map_eq_nil_iff.mp hnone)]
  | succ i =>
    simp only at hnone ⊢
    rw [h.front.text_getElem? (show i < o + w + 2 by omega),
      Source.leadingIn_append rfl (List.map_eq_nil_iff.mp hnone)]

include hsealed hB

/-- The lines that lead a method of the rest are those that lead it in the rest alone. The search
has last found a method in the rest, or none there and one of the piece that ends at `last`. -/
theorem leadingLines_rest {previous previous' last start : Nat}
    (hnone : alone.leadingLines (ClassBody.leadingFloor A last (o + w + 2)) (o + w + 2) = [])
    (hlast : last ≤ o + w + 1)
    (hprevious : previous = o + 1 ∧ previous' = last ∨
      o + 1 < previous ∧ previous' = previous + w)
    (hstart : o + 2 ≤ start) :
    whole.leadingLines
        (ClassBody.leadingFloor (A ++ B.map (Region.moved w)) previous' (start + w)) (start + w) =
      rest.leadingLines (ClassBody.leadingFloor B previous start) start := by
  rw [ClassBody.leadingFloor_append]
  rcases hprevious with ⟨rfl, rfl⟩ | ⟨hlt, rfl⟩
  · have hfloor (i : Nat) (hi : o + w + 1 ≤ i) : ClassBody.leadingFloor A previous' i =
        ClassBody.leadingFloor A previous' (o + w + 1) :=
      ClassBody.leadingFloor_congr (fun r hr ↦ ⟨(hA r hr).2.2.trans hi, (hA r hr).2.2⟩) _
    rw [hfloor _ (by omega)] at hnone
    have hle : ClassBody.leadingFloor A previous' (o + w + 1) ≤ o + w + 1 :=
      ClassBody.leadingFloor_le hlast
    rw [hfloor _ (by omega)]
    have hbehind (r : Region) (hr : r ∈ B) : o + 1 < r.stop := by
      obtain ⟨hafter, hshort, -⟩ := hB r hr
      omega
    rcases ClassBody.leadingFloor_moved_cases start hbehind (show _ ≤ o + 1 + w from hle.trans
      (by omega)) with ⟨hsame, hkept⟩ | ⟨hlater, hmoved⟩
    · rw [hsame, hkept]
      exact h.leadingLines_across hsealed hle hnone hstart
    · rw [hmoved]
      exact h.back.leadingLines _ hlater
  · have habove : ClassBody.leadingFloor A (previous + w) (start + w) = previous + w := by
      refine ClassBody.leadingFloor_of_le (fun r hr ↦ ?_) _
      have hstop := (hA r hr).2.2
      omega
    rw [habove, ClassBody.leadingFloor_moved]
    exact h.back.leadingLines _ (hlt.trans_le (ClassBody.le_leadingFloor _ _))

/-! ### Decisions about the heads of the rest -/

omit hsealed hA hB in
theorem declared_rest {ending : ClassBody.DeclarationEnd} {inner previous previous' : Nat}
    (place places : Nat) (hstart : o + 2 ≤ head.start) (hname : o + 2 ≤ head.nameStart)
    (hposition : o + 2 ≤ ending.position) (hinner : o + 2 ≤ inner)
    (hleading : whole.leadingLines
        (ClassBody.leadingFloor (A ++ B.map (Region.moved w)) previous' (head.start + w))
        (head.start + w) =
      rest.leadingLines (ClassBody.leadingFloor B previous head.start) head.start) :
    ClassBody.declared whole ⟨name, o, c + w⟩ (A ++ B.map (Region.moved w)) previous'
        (place + places) (head.moved w) (ending.moved w) (inner + w) =
      (ClassBody.declared rest ⟨name, o, c⟩ B previous place head ending inner).moved w places := by
  have htext {a : Nat} (b : Nat) (ha : o + 2 ≤ a) :
      whole.text.extract (a + w) (b + w) = rest.text.extract a b :=
    h.back.text_extract b (by omega)
  have hadd (a : Nat) : a + w + 1 = a + 1 + w := by omega
  unfold ClassBody.declared Method.moved MethodHead.moved ClassBody.DeclarationEnd.moved
  simp only
  rw [h.afterTrailingComment_rest (by omega), hleading, hadd, hadd, htext _ hstart, htext _ hname,
    htext _ hstart, htext _ hposition, h.back.calledNames _ (by omega)]

omit hA hB in
theorem startsMember_rest {m : Method} (places : Nat) (hlength : m.leading.length ≤ m.start)
    (hstart : o + 1 ≤ m.leadingStart) :
    ClassBody.startsMember whole ⟨name, o, c + w⟩ (m.moved w places) =
      ClassBody.startsMember rest ⟨name, o, c⟩ m := by
  have hleading : (m.moved w places).leadingStart = m.leadingStart + w := by
    unfold Method.leadingStart Method.moved
    simp only
    omega
  have hmap := congrArg (Option.all id) (h.map_lastSolid? hsealed hstart)
  unfold ClassBody.startsMember
  rw [hleading]
  simpa only [Option.all_map, id_eq] using hmap

omit h hsealed hB in
theorem holding?_rest {i : Nat} (hi : o + 1 ≤ i) :
    Region.holding? (A ++ B.map (Region.moved w)) (i + w) =
      (Region.holding? B i).map (Region.moved w) := by
  have hnone : Region.holding? A (i + w) = none := by
    rw [← Option.isNone_iff_eq_none, ← List.append_nil A]
    exact isNone_holding?_rest (B := []) (List.Perm.refl _) hA hi
  have hmoved (r : Region) : (r.moved w).contains (i + w) = r.contains i := by
    simp [Region.contains, Region.moved]
  unfold Region.holding? at hnone ⊢
  rw [List.find?_append, hnone, Option.none_or, List.find?_map]
  simp only [Function.comp_def, hmoved]

/-- The searches stand at the same head of the rest: so many `places` further on, and behind the
same method of the rest or behind none, but the one behind the piece's last method. -/
structure Abreast (o w last places r : Nat) (s : Nat × Nat) (r' : Nat) (s' : Nat × Nat) : Prop where
  resumes : Resumes o w r r'
  previous_le : s.1 ≤ r
  places_eq : s'.2 = s.2 + places
  previous_eq : s.1 = o + 1 ∧ s'.1 = last ∨ o + 1 < s.1 ∧ s'.1 = s.1 + w

/-- The search decides about a head of the rest as in the rest alone. -/
theorem decideHead_rest (hc : o + 1 < c) {last places r r' : Nat} {s s' : Nat × Nat}
    (hnone : alone.leadingLines (ClassBody.leadingFloor A last (o + w + 2)) (o + w + 2) = [])
    (hlast : last ≤ o + w + 1) (habreast : Abreast o w last places r s r' s')
    (hhead : head ∈ MethodHead.allBetween rest.text (o + 1) c) (hlate : r ≤ head.start) :
    (ClassBody.decideHead whole ⟨name, o, c + w⟩ (A ++ B.map (Region.moved w)) r' s'
          (head.moved w)).1 =
        (ClassBody.decideHead rest ⟨name, o, c⟩ B r s head).1.map (Finding.moved w places) ∧
      Abreast o w last places (ClassBody.decideHead rest ⟨name, o, c⟩ B r s head).2.1
        (ClassBody.decideHead rest ⟨name, o, c⟩ B r s head).2.2
        (ClassBody.decideHead whole ⟨name, o, c + w⟩ (A ++ B.map (Region.moved w)) r' s'
          (head.moved w)).2.1
        (ClassBody.decideHead whole ⟨name, o, c + w⟩ (A ++ B.map (Region.moved w)) r' s'
          (head.moved w)).2.2 := by
  obtain ⟨hstart, hname, hparenthesis⟩ := h.head_bounds_rest hsealed hc hhead
  have hprevious := habreast.previous_le
  unfold ClassBody.decideHead
  rw [show (head.moved w).start = head.start + w from rfl, holding?_rest hA (by omega)]
  cases hregion : Region.holding? B head.start with
  | some region =>
    obtain ⟨-, -, hstop⟩ := Region.holding?_eq_some hregion
    refine ⟨rfl, Or.inl rfl, ?_, habreast.places_eq, habreast.previous_eq⟩
    simp only
    omega
  | none =>
    simp only [Option.map_none]
    rw [h.braceDepth_rest hsealed (show o + 1 ≤ head.start by omega)]
    split_ifs with hdepth
    · exact ⟨rfl, habreast⟩
    · rw [ClassBody.methodAt?_eq, ClassBody.methodAt?_eq, h.extent?_rest hA (by omega) (by omega)]
      cases hextent : ClassBody.extent? rest ⟨name, o, c⟩ B head with
      | none => exact ⟨rfl, habreast⟩
      | some extent =>
        obtain ⟨ending, inner⟩ := extent
        obtain ⟨hbehind, hclose, hposition, hclosed⟩ := ClassBody.extent?_bounds hextent
        obtain ⟨hge, -⟩ := ClassBody.afterTrailingComment_bounds rest hclosed
        have hleading := h.leadingLines_rest hsealed hA hB hnone hlast habreast.previous_eq hstart
        simp only [Option.map_some]
        rw [habreast.places_eq, h.declared_rest s.2 places hstart (by omega) (by omega) (by omega)
          hleading]
        set m := ClassBody.declared rest ⟨name, o, c⟩ B s.1 s.2 head ending inner with hm
        have hfloor : ClassBody.leadingFloor B s.1 head.start ≤ head.start :=
          ClassBody.leadingFloor_le (by omega)
        have hfloor' : s.1 ≤ ClassBody.leadingFloor B s.1 head.start :=
          ClassBody.le_leadingFloor ..
        have hlength : m.leading.length ≤ head.start - ClassBody.leadingFloor B s.1 head.start :=
          Source.length_leadingLines_le ..
        have hstop : m.stop = ClassBody.afterTrailingComment rest ⟨name, o, c⟩ inner := rfl
        have hfirst := habreast.previous_eq
        have hinside : o + 1 ≤ m.leadingStart := by
          change o + 1 ≤ head.start - m.leading.length
          omega
        rw [h.startsMember_rest hsealed places (show m.leading.length ≤ head.start by omega) hinside]
        split_ifs with hmember
        · refine ⟨rfl, Or.inl rfl, Nat.le_refl _, ?_, Or.inr ⟨?_, rfl⟩⟩
          · simp only
            omega
          · simp only
            omega
        · refine ⟨rfl, Or.inl rfl, ?_, habreast.places_eq, hfirst⟩
          simp only
          omega

end Spliced

/-! ### All methods -/

namespace ClassBody

/-- What a search remembers behind some findings: where the last method ended, and how many there
were. -/
def remembered (found : List Finding) (state : Nat × Nat) : Nat × Nat :=
  (((found.filterMap Finding.method?).getLast?.map Method.stop).getD state.1,
    state.2 + (found.filterMap Finding.method?).length)

theorem remembered_append (found later : List Finding) (state : Nat × Nat) :
    remembered (found ++ later) state = remembered later (remembered found state) := by
  unfold remembered
  rw [List.filterMap_append, List.getLast?_append, List.length_append]
  cases (later.filterMap Finding.method?).getLast? with
  | none => simp [Nat.add_assoc]
  | some m => simp [Nat.add_assoc]

theorem remembered_sweep (src : Source) (body : ClassBody) (skipped : List Region) (r : Nat)
    (s : Nat × Nat) (heads : List MethodHead) :
    (sweep MethodHead.start (body.decideHead src skipped) r s heads).2.2 =
      remembered (sweep MethodHead.start (body.decideHead src skipped) r s heads).1 s := by
  refine sweep_state (fun _ ↦ rfl) remembered_append (fun r s head ↦ ?_) r s heads
  unfold decideHead
  cases Region.holding? skipped head.start with
  | some region => rfl
  | none =>
    simp only
    split_ifs
    · rfl
    · cases body.methodAt? src skipped s.1 s.2 head with
      | none => rfl
      | some m =>
        simp only
        split_ifs <;> rfl

end ClassBody

namespace Spliced

variable {whole alone rest : Source} {name : Text} {o w c : Nat}
  (h : Spliced whole alone rest o w) (hsealed : ClassBody.Sealed alone ⟨name, o, o + w + 2⟩)

include h hsealed

/-- The search decides about all heads of the piece as in the piece alone. -/
theorem decideHead_heads (hc : o + 1 < c) (r : Nat) (s : Nat × Nat) (hr : s.1 ≤ r ∧ r ≤ o + w + 1)
    (head : MethodHead) (hhead : head ∈ MethodHead.allBetween alone.text (o + 1) (o + w + 2))
    (hlate : r ≤ head.start) :
    ClassBody.decideHead whole ⟨name, o, c + w⟩
        (ClassBody.skippedRegions alone ⟨name, o, o + w + 2⟩ ++
          (ClassBody.skippedRegions rest ⟨name, o, c⟩).map (Region.moved w)) r s head =
        ClassBody.decideHead alone ⟨name, o, o + w + 2⟩
          (ClassBody.skippedRegions alone ⟨name, o, o + w + 2⟩) r s head ∧
      (ClassBody.decideHead alone ⟨name, o, o + w + 2⟩
          (ClassBody.skippedRegions alone ⟨name, o, o + w + 2⟩) r s head).2.2.1 ≤
        (ClassBody.decideHead alone ⟨name, o, o + w + 2⟩
          (ClassBody.skippedRegions alone ⟨name, o, o + w + 2⟩) r s head).2.1 ∧
      (ClassBody.decideHead alone ⟨name, o, o + w + 2⟩
          (ClassBody.skippedRegions alone ⟨name, o, o + w + 2⟩) r s head).2.1 ≤ o + w + 1 :=
  h.decideHead_piece hsealed (fun _ hr ↦ within_skippedRegions_piece hsealed hr)
    (fun _ hr ↦ h.within_skippedRegions_rest hsealed hc hr) hc hhead hr hlate

/-- The methods of the piece end in front of the line feed behind it. -/
theorem lastStop_le (hc : o + 1 < c) :
    ClassBody.lastStop alone ⟨name, o, o + w + 2⟩ ≤ o + w + 1 := by
  obtain ⟨-, hprevious, hresume⟩ := sweep_congr (I := fun r s ↦ s.1 ≤ r ∧ r ≤ o + w + 1)
    (h.decideHead_heads hsealed hc) (s := (o + 1, 0)) ⟨Nat.le_refl (o + 1), by omega⟩
  rw [ClassBody.remembered_sweep, ← ClassBody.findMembers_eq_sweep] at hprevious
  exact hprevious.trans hresume

/-- The findings of the whole are those of the piece and, moved, those of the rest. -/
theorem findings_whole (hc : o + 1 < c) :
    ClassBody.findings whole ⟨name, o, c + w⟩ =
      ClassBody.findings alone ⟨name, o, o + w + 2⟩ ++
        (ClassBody.findings rest ⟨name, o, c⟩).map
          (Finding.moved w (ClassBody.methods alone ⟨name, o, o + w + 2⟩).length) := by
  have hall : MethodHead.allBetween whole.text (o + 1) (c + w) = _ :=
    h.findBetween_eq hsealed (contained_method _) hc
  have hA (r : Region) (hr : r ∈ ClassBody.skippedRegions alone ⟨name, o, o + w + 2⟩) :=
    within_skippedRegions_piece hsealed hr
  have hB (r : Region) (hr : r ∈ ClassBody.skippedRegions rest ⟨name, o, c⟩) :=
    h.within_skippedRegions_rest hsealed hc hr
  have hfound : ClassBody.findings alone ⟨name, o, o + w + 2⟩ = _ :=
    ClassBody.findMembers_eq_sweep ..
  have hstate := ClassBody.remembered_sweep alone ⟨name, o, o + w + 2⟩
    (ClassBody.skippedRegions alone ⟨name, o, o + w + 2⟩) (o + 1) (o + 1, 0)
    (MethodHead.allBetween alone.text (o + 1) (o + w + 2))
  rw [← hfound] at hstate
  rw [hfound]
  unfold ClassBody.findings ClassBody.members
  rw [h.skippedRegions_whole hsealed hc]
  simp only
  rw [hall, ClassBody.findMembers_eq_sweep, ClassBody.findMembers_eq_sweep]
  refine sweep_append_map (I := fun r s ↦ s.1 ≤ r ∧ r ≤ o + w + 1) (h.decideHead_heads hsealed hc)
    (fun r s r' s' habreast head hhead ↦ ?_)
    (fun r s r' s' habreast head hhead hlate ↦ h.decideHead_rest hsealed hA hB hc hsealed.leading
      (h.lastStop_le hsealed hc) habreast hhead hlate) ⟨Nat.le_refl _, by omega⟩ fun hend ↦ ?_
  · exact habreast.resumes.lt_iff (h.head_bounds_rest hsealed hc hhead).1
  · refine ⟨Or.inr ⟨by omega, hend.2.trans (by omega)⟩, Nat.le_refl _, ?_, Or.inl ⟨rfl, ?_⟩⟩
    · exact congrArg Prod.snd hstate
    · exact congrArg Prod.fst hstate

end Spliced

end MemberOrder
