import MemberOrder.Layout.Assembly
import MemberOrder.Proofs.Splice.Opening

/-!
A class body made of sealed pieces, one behind the other. It closes where the body behind the pieces
does, and declares the methods of the pieces, each read alone, and those behind the pieces. What a
method is does not depend on where it stands; of its leading lines, not on the empty ones before
them.
-/

set_option autoImplicit false

namespace MemberOrder

namespace Method

/-- The leading lines as a block of a result shows them. -/
def shownLeading (m : Method) : Text :=
  if Text.allBlank (Text.dropEmptyLines m.leading) then [] else Text.dropEmptyLines m.leading

/-- The method, wherever it stands and whatever empty lines stand before it. -/
def essence (m : Method) : Method :=
  { m with leading := m.shownLeading, start := 0, stop := 0, position := 0 }

theorem rendered_eq (m : Method) : m.rendered = m.shownLeading ++ Text.dropEmptyLines m.text := by
  unfold rendered shownLeading
  simp only
  split_ifs <;> rfl

theorem rendered_eq_of_essence_eq {m other : Method} (h : m.essence = other.essence) :
    m.rendered = other.rendered := by
  have hleading : m.essence.leading = other.essence.leading := congrArg Method.leading h
  have htext : m.essence.text = other.essence.text := congrArg Method.text h
  rw [rendered_eq, rendered_eq]
  exact congrArg₂ (· ++ Text.dropEmptyLines ·) hleading htext

end Method

namespace Finding

theorem filterMap_method?_map_moved (shift places : Nat) (found : List Finding) :
    (found.map (moved shift places)).filterMap method? =
      (found.filterMap method?).map (Method.moved shift places) := by
  induction found with
  | nil => rfl
  | cons finding found ih =>
    cases finding with
    | method m => exact congrArg (m.moved shift places :: ·) ih
    | inPlace signature => exact ih

end Finding

theorem Spliced.methods_whole {whole alone rest : Source} {name : Text} {o w c : Nat}
    (h : Spliced whole alone rest o w) (hsealed : ClassBody.Sealed alone ⟨name, o, o + w + 2⟩)
    (hc : o + 1 < c) :
    ClassBody.methods whole ⟨name, o, c + w⟩ =
      ClassBody.methods alone ⟨name, o, o + w + 2⟩ ++
        (ClassBody.methods rest ⟨name, o, c⟩).map
          (Method.moved w (ClassBody.methods alone ⟨name, o, o + w + 2⟩).length) := by
  unfold ClassBody.methods
  rw [h.findings_whole hsealed hc, List.filterMap_append, Finding.filterMap_method?_map_moved]
  rfl

namespace Opening

variable {pre name : Text} {o : Nat} (h : Opening pre name o)

include h

/-- A body that starts with a line feed does not close before it. -/
theorem lt_of_closingBrace? {z : Text} {c : Nat}
    (hc : (Source.ofText (pre ++ '\n' :: z)).closingBrace? o = some c) : o + 1 < c := by
  have hbehind := (Source.closeOf?_bounds hc).1
  have hchar := Source.getElem?_of_closeOf? hc
  refine Nat.lt_of_le_of_ne hbehind fun heq ↦ ?_
  rw [← heq, h.glyphs_append, List.getElem?_append_right h.length_glyphs.le, h.length_glyphs,
    Nat.sub_self] at hchar
  have hfeed : some (Glyph.code '\n') = some (Glyph.code '\x7d') := hchar
  exact absurd hfeed (by decide)

/-- How a source with this opening is read: its body closes, or it does not. -/
theorem ofText_append (u : Text) :
    Reading.ofText (pre ++ u) = match (Source.ofText (pre ++ u)).closingBrace? o with
      | none => .unclosed name o
      | some c => .complete (Layout.ofMembers (Source.ofText (pre ++ u)) ⟨name, o, c⟩
          (ClassBody.skippedRegions (Source.ofText (pre ++ u)) ⟨name, o, c⟩)
          (ClassBody.findings (Source.ofText (pre ++ u)) ⟨name, o, c⟩)) := by
  unfold Reading.ofText Reading.ofSource
  rw [h.firstClass?_append u]
  rfl

/-- A source with this opening is a complete class of its name exactly if its body closes. -/
theorem exists_complete_iff (u : Text) :
    (∃ layout, Reading.ofText (pre ++ u) = .complete layout ∧ layout.name = name ∧
        (Reading.ofText (pre ++ u)).methods = layout.methods) ↔
      (Source.ofText (pre ++ u)).closingBrace? o ≠ none := by
  rw [h.ofText_append]
  cases (Source.ofText (pre ++ u)).closingBrace? o with
  | none => simp
  | some c =>
    refine iff_of_true ⟨_, rfl, ?_, rfl⟩ (Option.some_ne_none c)
    rw [Layout.name, Layout.body_ofMembers]

theorem methods_ofText_append {u : Text} {c : Nat}
    (hc : (Source.ofText (pre ++ u)).closingBrace? o = some c) :
    (Reading.ofText (pre ++ u)).methods =
      ClassBody.methods (Source.ofText (pre ++ u)) ⟨name, o, c⟩ := by
  rw [h.ofText_append, hc]
  exact Layout.methods_ofMembers ..

theorem closingBrace?_piece {piece : Text}
    (hsealed : (bodyOfPiece name o piece).Sealed (pieceAlone pre piece)) :
    (pieceAlone pre piece).closingBrace? o = some (o + piece.length + 2) := by
  have hempty : (Source.ofText (pre ++ ['\n', '\x7d'])).closingBrace? o = some (o + 2) := by
    have hdrop : (Source.ofText (pre ++ ['\n', '\x7d'])).glyphs.drop o =
        [Glyph.code '\x7b', Glyph.code '\n', Glyph.code '\x7d'] := by
      obtain ⟨hlt, hopen⟩ := List.getElem?_eq_some_iff.mp h.opens
      rw [h.glyphs_append, List.drop_append_of_le_length hlt.le, List.drop_eq_getElem_cons hlt,
        hopen, List.drop_eq_nil_iff.mpr h.length_glyphs.le]
      rfl
    unfold Source.closingBrace? Source.closeOf?
    rw [hdrop]
    rfl
  have hwhole := (h.spliced hsealed ['\x7d']).closingBrace?_open hsealed
  rw [hempty, Option.map_some, show o + 2 + piece.length = o + piece.length + 2 by omega] at hwhole
  exact hwhole

theorem methods_piece {piece : Text}
    (hsealed : (bodyOfPiece name o piece).Sealed (pieceAlone pre piece)) :
    (Reading.ofText (pre ++ (piece ++ ['\n', '\x7d']))).methods =
      (bodyOfPiece name o piece).methods (pieceAlone pre piece) :=
  h.methods_ofText_append (h.closingBrace?_piece hsealed)

theorem name_and_openBrace_of_complete {u : Text} {layout : Layout}
    (hread : Reading.ofText (pre ++ u) = .complete layout) :
    layout.name = name ∧ layout.body.openBrace = o := by
  have hclass := (Reading.ofSource_eq_complete hread).1
  rw [h.firstClass?_append u] at hclass
  simp only [Option.some.injEq, Prod.mk.injEq] at hclass
  exact ⟨hclass.1.symm, hclass.2.symm⟩

theorem openBrace_of_complete {u : Text} {layout : Layout}
    (hread : Reading.ofText (pre ++ u) = .complete layout) : layout.body.openBrace = o :=
  (h.name_and_openBrace_of_complete hread).2

theorem closingBrace?_of_complete {u : Text} {layout : Layout}
    (hread : Reading.ofText (pre ++ u) = .complete layout) :
    (Source.ofText (pre ++ u)).closingBrace? o = some layout.body.closeBrace := by
  have hclose := (Reading.ofSource_eq_complete hread).2.1
  rwa [h.openBrace_of_complete hread] at hclose

/-- A body with a sealed piece in front is complete if it was, and has the methods of the piece in
front of its own. -/
theorem exists_complete_of_piece {piece z : Text}
    (hsealed : (bodyOfPiece name o piece).Sealed (pieceAlone pre piece)) {rest : Layout}
    (hrest : Reading.ofText (pre ++ '\n' :: z) = .complete rest) :
    ∃ whole, Reading.ofText (pre ++ (piece ++ '\n' :: z)) = .complete whole ∧
      whole.methods = (Reading.ofText (pre ++ (piece ++ ['\n', '\x7d']))).methods ++
        rest.methods.map (Method.moved piece.length
          (Reading.ofText (pre ++ (piece ++ ['\n', '\x7d']))).methods.length) := by
  have hspliced := h.spliced hsealed z
  have hc := h.closingBrace?_of_complete hrest
  have hclose := hspliced.closingBrace?_open hsealed
  rw [hc, Option.map_some] at hclose
  obtain ⟨whole, hread, -, hmethods⟩ :=
    (h.exists_complete_iff (piece ++ '\n' :: z)).mpr (hclose ▸ Option.some_ne_none _)
  refine ⟨whole, hread, ?_⟩
  have hown : rest.methods = (Reading.ofText (pre ++ '\n' :: z)).methods := by
    rw [hrest]
    rfl
  rw [← hmethods, hown, h.methods_ofText_append hclose, h.methods_ofText_append hc,
    h.methods_piece hsealed, hspliced.methods_whole hsealed (h.lt_of_closingBrace? hc)]
  rfl

/-- A body with a sealed piece in front closes where it did, and has the methods of the piece in
front of its own. -/
theorem read_piece {piece : Text}
    (hsealed : (bodyOfPiece name o piece).Sealed (pieceAlone pre piece)) (z : Text) :
    (Source.ofText (pre ++ (piece ++ '\n' :: z))).closingBrace? o =
        ((Source.ofText (pre ++ '\n' :: z)).closingBrace? o).map (· + piece.length) ∧
      ((Source.ofText (pre ++ '\n' :: z)).closingBrace? o ≠ none →
        (Reading.ofText (pre ++ (piece ++ '\n' :: z))).methods.map Method.essence =
          (Reading.ofText (pre ++ (piece ++ ['\n', '\x7d']))).methods.map Method.essence ++
            (Reading.ofText (pre ++ '\n' :: z)).methods.map Method.essence) := by
  refine ⟨(h.spliced hsealed z).closingBrace?_open hsealed, fun hne ↦ ?_⟩
  obtain ⟨rest, hrest, -, hown⟩ := (h.exists_complete_iff ('\n' :: z)).mpr hne
  obtain ⟨whole, hwhole, hmethods⟩ := h.exists_complete_of_piece hsealed hrest
  have hread : (Reading.ofText (pre ++ (piece ++ '\n' :: z))).methods = whole.methods := by
    rw [hwhole]
    rfl
  rw [hread, hmethods, hown, List.map_append, List.map_map]
  rfl

/-- A body made of sealed pieces and a rest that starts with a line feed, as every piece but the
first does, closes where the rest does and has the methods of the pieces and of the rest. -/
theorem read_pieces {pieces : List Text}
    (hsealed : ∀ piece ∈ pieces, (bodyOfPiece name o piece).Sealed (pieceAlone pre piece))
    (hfeed : ∀ piece ∈ pieces.tail, piece.head? = some '\n') (z : Text) :
    (Source.ofText (pre ++ (pieces.flatten ++ '\n' :: z))).closingBrace? o =
        ((Source.ofText (pre ++ '\n' :: z)).closingBrace? o).map (· + pieces.flatten.length) ∧
      ((Source.ofText (pre ++ '\n' :: z)).closingBrace? o ≠ none →
        (Reading.ofText (pre ++ (pieces.flatten ++ '\n' :: z))).methods.map Method.essence =
          (pieces.flatMap fun piece ↦
            (Reading.ofText (pre ++ (piece ++ ['\n', '\x7d']))).methods.map Method.essence) ++
            (Reading.ofText (pre ++ '\n' :: z)).methods.map Method.essence) := by
  induction pieces with
  | nil => simp
  | cons piece pieces ih =>
    obtain ⟨hclose, hmethods⟩ := ih (fun p hp ↦ hsealed p (List.mem_cons_of_mem _ hp))
      (fun p hp ↦ hfeed p (List.mem_of_mem_tail hp))
    -- What stands behind the piece starts with a line feed, be it the next piece or the rest.
    obtain ⟨z', hz'⟩ : ∃ z', pieces.flatten ++ '\n' :: z = '\n' :: z' := by
      cases pieces with
      | nil => exact ⟨z, rfl⟩
      | cons next others =>
        have hnext := hfeed next List.mem_cons_self
        obtain ⟨d, next, rfl⟩ := List.exists_cons_of_ne_nil (List.ne_nil_of_mem
          (List.mem_of_mem_head? hnext))
        cases hnext
        exact ⟨next ++ others.flatten ++ '\n' :: z, by simp⟩
    obtain ⟨hfirst, hread⟩ := h.read_piece (hsealed piece List.mem_cons_self) z'
    rw [List.flatten_cons, List.append_assoc, hz', List.length_append]
    rw [hz'] at hclose hmethods
    refine ⟨?_, fun hne ↦ ?_⟩
    · rw [hfirst, hclose, Option.map_map]
      congr 1
      funext c
      simp only [Function.comp_apply]
      omega
    · rw [hread (by rw [hclose]; simpa using hne), hmethods hne, List.flatMap_cons,
        List.append_assoc]

end Opening

end MemberOrder
