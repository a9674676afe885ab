import MemberOrder.Proofs.Layout.Blocks

/-!
What stands around the methods of a class: in front of the first one, between two, and behind the
last. A sealed piece without methods, in front of a body, adds to what stands in front of its first
method; one that ends with its only method turns that into what stands between two.
-/

set_option autoImplicit false

namespace MemberOrder

theorem drop_splice {α : Type} (a p b : List α) {i : Nat} (h : a.length ≤ i) :
    (a ++ (p ++ b)).drop (i + p.length) = (a ++ b).drop i := by
  rw [List.drop_append, List.drop_append, List.drop_append, List.drop_eq_nil_iff.mpr (by omega),
    List.drop_eq_nil_iff.mpr (show p.length ≤ _ by omega), List.drop_eq_nil_iff.mpr h]
  simp only [List.nil_append]
  congr 1
  omega

theorem extract_splice {α : Type} (a p b : List α) {i : Nat} (h : a.length ≤ i) (j : Nat) :
    (a ++ (p ++ b)).extract (i + p.length) (j + p.length) = (a ++ b).extract i j := by
  rw [List.extract_eq_take_drop, List.extract_eq_take_drop, drop_splice a p b h,
    Nat.add_sub_add_right]

theorem extract_piece {α : Type} (a p b : List α) :
    (a ++ (p ++ b)).extract a.length (a.length + p.length) = p := by
  rw [List.extract_eq_take_drop, List.drop_left, Nat.add_sub_cancel_left, List.take_left]

namespace Method

theorem Placed.length_leading_le {src : Source} {body : ClassBody} {m : Method}
    (h : m.Placed src body) : m.leading.length ≤ m.start := by
  have hlt := h.openBrace_lt
  unfold leadingStart at hlt
  omega

theorem leadingStart_moved (shift places : Nat) {m : Method} (h : m.leading.length ≤ m.start) :
    (m.moved shift places).leadingStart = m.leadingStart + shift := by
  unfold leadingStart moved
  simp only
  omega

end Method

namespace Layout

/-- What the body of the class holds in front of its first method. -/
def front (layout : Layout) : Text := layout.head.drop (layout.body.openBrace + 1)

/-- What stands in front of the first method, between two, and behind the last one. -/
def surroundings (layout : Layout) : Text × List Text × Text :=
  (layout.front, gaps layout.segments, layout.tail)

theorem gaps_segmentsFrom_cons (text : Text) (m next : Method) (rest : List Method) :
    gaps (segmentsFrom text m (next :: rest)) =
      text.extract m.stop next.leadingStart :: gaps (segmentsFrom text next rest) :=
  rfl

/-- The gaps between methods stay when a piece comes in front of all of them. -/
theorem gaps_segmentsFrom_moved {pre u : Text} {body : ClassBody} (piece : Text) (places : Nat)
    (hpre : pre.length = body.openBrace + 1) {previous place : Nat} {m : Method}
    {rest : List Method}
    (h : body.Tiles (Source.ofText (pre ++ u)) previous place (m :: rest)) :
    gaps (segmentsFrom (pre ++ (piece ++ u)) (m.moved piece.length places)
        (rest.map (Method.moved piece.length places))) =
      gaps (segmentsFrom (pre ++ u) m rest) := by
  induction rest generalizing previous place m with
  | nil => rfl
  | cons next rest ih =>
    obtain ⟨hplaced, -, -, htiles⟩ := h
    have hstop : pre.length ≤ m.stop := by
      have hopen := hplaced.openBrace_lt
      have hle := hplaced.leadingStart_le
      have hlt := hplaced.start_lt
      omega
    rw [List.map_cons, gaps_segmentsFrom_cons, gaps_segmentsFrom_cons, ih htiles,
      Method.leadingStart_moved _ _ htiles.1.length_leading_le]
    congr 1
    exact extract_splice pre piece u hstop _

/-- What stands behind the last method stays when a piece comes in front of all of them. -/
theorem drop_stop_moved {pre u : Text} {body : ClassBody} (piece : Text) (places : Nat)
    (hpre : pre.length = body.openBrace + 1) {previous place : Nat} {m : Method}
    {rest : List Method}
    (h : body.Tiles (Source.ofText (pre ++ u)) previous place (m :: rest)) :
    (pre ++ (piece ++ u)).drop ((rest.map (Method.moved piece.length places)).getLast?.getD
        (m.moved piece.length places)).stop =
      (pre ++ u).drop (rest.getLast?.getD m).stop := by
  have hopen := h.1.openBrace_lt
  have hle := (flatten_segmentsFrom h).2
  rw [List.getLast?_map, Option.getD_map]
  exact drop_splice pre piece u (by omega)

end Layout

namespace Opening

variable {pre name : Text} {o : Nat} (h : Opening pre name o) {piece z : Text}

include h

/-- The parts of a complete class with this opening, cut at its methods. -/
theorem cut_of_complete {u : Text} {layout : Layout}
    (hread : Reading.ofText (pre ++ u) = .complete layout) {first : Method} {rest : List Method}
    (hmethods : layout.methods = first :: rest) :
    layout.body.Tiles (Source.ofText (pre ++ u)) (o + 1) 0 (first :: rest) ∧
      layout.front = (pre ++ u).extract (o + 1) first.leadingStart ∧
      Layout.gaps layout.segments = Layout.gaps (Layout.segmentsFrom (pre ++ u) first rest) ∧
      layout.tail = (pre ++ u).drop (rest.getLast?.getD first).stop := by
  have hopen := h.openBrace_of_complete hread
  have htiles := Reading.tiles_of_complete hread
  obtain ⟨_, _, hcons, hhead, hsegments, htail⟩ :=
    Layout.exists_cut_of_complete hread (hmethods ▸ List.cons_ne_nil first rest)
  rw [hmethods] at hcons htiles
  obtain ⟨rfl, rfl⟩ := List.cons_eq_cons.mp hcons
  rw [hopen] at htiles
  refine ⟨htiles, ?_, by rw [hsegments], htail⟩
  rw [Layout.front, hhead, hopen, List.drop_take, List.extract_eq_take_drop]

theorem head_eq {u : Text} {layout : Layout}
    (hread : Reading.ofText (pre ++ u) = .complete layout) (hmethods : layout.methods ≠ []) :
    layout.head = pre ++ layout.front := by
  obtain ⟨first, rest, hcons, hhead, -, -⟩ := Layout.exists_cut_of_complete hread hmethods
  have hopen := (h.cut_of_complete hread hcons).1.1.openBrace_lt
  rw [h.openBrace_of_complete hread] at hopen
  have hlong : pre.length ≤ first.leadingStart := by
    rw [h.length_eq]
    omega
  rw [Layout.front, hhead, h.openBrace_of_complete hread, ← h.length_eq, List.take_append,
    List.take_of_length_le hlong, List.drop_left]

theorem opening_eq {u : Text} {layout : Layout}
    (hread : Reading.ofText (pre ++ u) = .complete layout) (hmethods : layout.methods ≠ []) :
    layout.opening = pre := by
  rw [Layout.opening, h.head_eq hread hmethods, h.openBrace_of_complete hread, ← h.length_eq,
    List.take_left]

/-- A piece without methods comes in front of what stands in front of the first method. -/
theorem surroundings_of_piece_nil
    (hsealed : (bodyOfPiece name o piece).Sealed (pieceAlone pre piece))
    (hnone : (Reading.ofText (pre ++ (piece ++ ['\n', '\x7d']))).methods = []) {rest : Layout}
    (hrest : Reading.ofText (pre ++ '\n' :: z) = .complete rest) (hmethods : rest.methods ≠ []) :
    ∃ whole, Reading.ofText (pre ++ (piece ++ '\n' :: z)) = .complete whole ∧
      whole.methods ≠ [] ∧
      whole.surroundings = (piece ++ rest.front, Layout.gaps rest.segments, rest.tail) := by
  obtain ⟨whole, hread, hwhole⟩ := h.exists_complete_of_piece hsealed hrest
  obtain ⟨first, others, hcons⟩ := List.exists_cons_of_ne_nil hmethods
  rw [hnone, List.nil_append, hcons, List.map_cons] at hwhole
  refine ⟨whole, hread, hwhole ▸ List.cons_ne_nil _ _, ?_⟩
  obtain ⟨htiles, hfront, hgaps, htail⟩ := h.cut_of_complete hrest hcons
  obtain ⟨-, hfront', hgaps', htail'⟩ := h.cut_of_complete hread hwhole
  have hlength : pre.length = rest.body.openBrace + 1 := by
    rw [h.openBrace_of_complete hrest, h.length_eq]
  have hopen := htiles.1.openBrace_lt
  have hextract := extract_append_extract (pre ++ (piece ++ '\n' :: z))
    (show pre.length ≤ pre.length + piece.length by omega)
    (show pre.length + piece.length ≤ first.leadingStart + piece.length by omega)
  rw [extract_piece, extract_splice pre piece _ (Nat.le_refl _)] at hextract
  rw [Layout.surroundings, hfront', hgaps', htail', hfront, hgaps, htail,
    Layout.gaps_segmentsFrom_moved piece _ hlength htiles,
    Layout.drop_stop_moved piece _ hlength htiles,
    Method.leadingStart_moved _ _ htiles.1.length_leading_le, ← h.length_eq, hextract]

/-- The only method of a piece ends it if nothing of the piece stands behind the method. -/
theorem stop_eq {alone : Layout}
    (halone : Reading.ofText (pre ++ (piece ++ ['\n', '\x7d'])) = .complete alone) {m : Method}
    (hone : alone.methods = [m]) (hend : alone.tail = ['\n', '\x7d']) :
    m.stop = pre.length + piece.length := by
  obtain ⟨htiles, -, -, htail⟩ := h.cut_of_complete halone hone
  have hlengths := congrArg List.length (htail.symm.trans hend)
  have hlt := htiles.1.start_lt
  simp only [List.getLast?_nil, Option.getD_none, List.length_drop, List.length_append,
    List.length_cons, List.length_nil] at hlengths
  omega

/-- A piece that ends with its only method comes in front of the first method, with what stood in
front of that between the two. -/
theorem surroundings_of_piece_singleton
    (hsealed : (bodyOfPiece name o piece).Sealed (pieceAlone pre piece)) {alone : Layout}
    (halone : Reading.ofText (pre ++ (piece ++ ['\n', '\x7d'])) = .complete alone) {m : Method}
    (hone : alone.methods = [m]) (hend : alone.tail = ['\n', '\x7d']) {rest : Layout}
    (hrest : Reading.ofText (pre ++ '\n' :: z) = .complete rest) (hmethods : rest.methods ≠ []) :
    ∃ whole, Reading.ofText (pre ++ (piece ++ '\n' :: z)) = .complete whole ∧
      whole.methods ≠ [] ∧
      whole.surroundings = (alone.front, rest.front :: Layout.gaps rest.segments, rest.tail) := by
  obtain ⟨whole, hread, hwhole⟩ := h.exists_complete_of_piece hsealed hrest
  obtain ⟨first, others, hcons⟩ := List.exists_cons_of_ne_nil hmethods
  have halone' : (Reading.ofText (pre ++ (piece ++ ['\n', '\x7d']))).methods = [m] := by
    rw [halone]
    exact hone
  rw [halone', hcons, List.map_cons, List.singleton_append] at hwhole
  refine ⟨whole, hread, hwhole ▸ List.cons_ne_nil _ _, ?_⟩
  obtain ⟨htiles, hfront, hgaps, htail⟩ := h.cut_of_complete hrest hcons
  obtain ⟨htilesA, hfrontA, -, -⟩ := h.cut_of_complete halone hone
  obtain ⟨-, hfront', hgaps', htail'⟩ := h.cut_of_complete hread hwhole
  have hlength : pre.length = rest.body.openBrace + 1 := by
    rw [h.openBrace_of_complete hrest, h.length_eq]
  have hstop := h.stop_eq halone hone hend
  have hstart : m.leadingStart ≤ o + piece.length + 2 := by
    have hle := htilesA.1.leadingStart_le
    have hlt := htilesA.1.start_lt
    have hpre := h.length_eq
    omega
  have hsame : (pre ++ (piece ++ '\n' :: z)).extract (o + 1) m.leadingStart =
      (pre ++ (piece ++ ['\n', '\x7d'])).extract (o + 1) m.leadingStart :=
    (h.spliced hsealed z).front.text_extract hstart
  rw [Layout.surroundings, hfront', hgaps', htail', hfront, hgaps, htail, hfrontA, hsame,
    Layout.gaps_segmentsFrom_cons, Layout.gaps_segmentsFrom_moved piece _ hlength htiles,
    List.getLast?_cons, Option.getD_some, Layout.drop_stop_moved piece _ hlength htiles,
    Method.leadingStart_moved _ _ htiles.1.length_leading_le, hstop,
    extract_splice pre piece _ (Nat.le_refl _), h.length_eq]

end Opening

end MemberOrder
