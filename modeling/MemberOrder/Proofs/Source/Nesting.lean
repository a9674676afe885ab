import MemberOrder.Proofs.Source.Transport

/-!
Nesting of delimiters. A stretch of source is balanced if it closes all it opens and nothing else;
then a delimiter that opens in it closes in it, and one that opens before it closes in it or behind
it as if the stretch were not there.
-/

set_option autoImplicit false

namespace MemberOrder.Source

variable {opening closing : Text}

/-- How many delimiters are open behind the stretch, when `depth` are open before it; nothing if it
closes more than are open. -/
def depthAfter (opening closing : Text) : Nat → List Glyph → Option Nat
  | depth, [] => some depth
  | depth, g :: rest =>
    if g.isCode && [g.char] == opening then depthAfter opening closing (depth + 1) rest
    else if g.isCode && [g.char] == closing then
      if depth = 0 then none else depthAfter opening closing (depth - 1) rest
    else depthAfter opening closing depth rest

/-- The stretch closes all it opens and nothing else. -/
def Balanced (opening closing : Text) (stretch : List Glyph) : Prop :=
  depthAfter opening closing 0 stretch = some 0

instance (opening closing : Text) (stretch : List Glyph) :
    Decidable (Balanced opening closing stretch) :=
  inferInstanceAs (Decidable (_ = _))

theorem depthAfter_append (depth : Nat) (stretch rest : List Glyph) :
    depthAfter opening closing depth (stretch ++ rest) =
      (depthAfter opening closing depth stretch).bind fun inner ↦
        depthAfter opening closing inner rest := by
  induction stretch generalizing depth with
  | nil => rfl
  | cons g stretch ih =>
    rw [List.cons_append, depthAfter, depthAfter]
    split_ifs with hopen hclose hdepth
    · exact ih _
    · rfl
    · exact ih _
    · exact ih depth

/-- What is open before a stretch that leaves some of it open closes behind it. -/
theorem closeIn_append_of_depthAfter {depth inner : Nat} {stretch : List Glyph}
    (h : depthAfter opening closing depth stretch = some inner) (rest : List Glyph) :
    closeIn opening closing (depth + 1) (stretch ++ rest) =
      (closeIn opening closing (inner + 1) rest).map (· + stretch.length) := by
  induction stretch generalizing depth with
  | nil =>
    cases h
    simp
  | cons g stretch ih =>
    have hlift (found : Option Nat) : (found.map (· + stretch.length)).map (· + 1) =
        found.map (· + (g :: stretch).length) := by
      rw [Option.map_map]
      rfl
    rw [depthAfter] at h
    rw [List.cons_append, closeIn]
    split_ifs at h ⊢ with hopen hclose hzero hdepth
    · rw [ih h, hlift]
    · omega
    · rw [show depth + 1 - 1 = depth - 1 + 1 by omega, ih h, hlift]
    · rw [ih h, hlift]

theorem closeIn_append_of_some {depth i : Nat} {stretch : List Glyph}
    (h : closeIn opening closing depth stretch = some i) (rest : List Glyph) :
    closeIn opening closing depth (stretch ++ rest) = some i := by
  induction stretch generalizing depth i with
  | nil => simp [closeIn] at h
  | cons g stretch ih =>
    rw [closeIn] at h
    rw [List.cons_append, closeIn]
    split_ifs at h ⊢ with hopen hclose hdepth
    · obtain ⟨j, hj, rfl⟩ := Option.map_eq_some_iff.mp h
      rw [ih hj, Option.map_some]
    · exact h
    · obtain ⟨j, hj, rfl⟩ := Option.map_eq_some_iff.mp h
      rw [ih hj, Option.map_some]
    · obtain ⟨j, hj, rfl⟩ := Option.map_eq_some_iff.mp h
      rw [ih hj, Option.map_some]

/-- A delimiter that a stretch does not close stays open behind it. -/
theorem lt_of_closeIn_eq_none {depth outer inner : Nat} {stretch : List Glyph} (hpos : 0 < depth)
    (h : closeIn opening closing depth stretch = none)
    (hdepth : depthAfter opening closing (outer + depth) stretch = some inner) :
    outer < inner := by
  induction stretch generalizing depth with
  | nil =>
    cases hdepth
    omega
  | cons g stretch ih =>
    rw [closeIn] at h
    rw [depthAfter] at hdepth
    split_ifs at h hdepth with hopen hclose hle
    · exact ih (Nat.succ_pos depth) (Option.map_eq_none_iff.mp h) hdepth
    · rw [show outer + depth - 1 = outer + (depth - 1) by omega] at hdepth
      exact ih (by omega) (Option.map_eq_none_iff.mp h) hdepth
    · exact ih hpos (Option.map_eq_none_iff.mp h) hdepth

@[simp] theorem braceBalance_nil : braceBalance [] = 0 := rfl

@[simp] theorem braceBalance_cons (g : Glyph) (stretch : List Glyph) :
    braceBalance (g :: stretch) = g.braceWeight + braceBalance stretch := rfl

@[simp] theorem braceBalance_append (stretch rest : List Glyph) :
    braceBalance (stretch ++ rest) = braceBalance stretch + braceBalance rest := by
  induction stretch with
  | nil => simp
  | cons g stretch ih => simp [ih, Int.add_assoc]

/-- The depth of braces, counted as a difference. -/
theorem braceBalance_of_depthAfter {depth inner : Nat} {stretch : List Glyph}
    (h : depthAfter ['\x7b'] ['\x7d'] depth stretch = some inner) :
    braceBalance stretch = (inner : Int) - depth := by
  induction stretch generalizing depth with
  | nil =>
    cases h
    simp
  | cons g stretch ih =>
    have hopening : (g.isCode && [g.char] == ['\x7b']) = g.isCodeChar '\x7b' := by
      simp [Glyph.isCodeChar]
    have hclosing : (g.isCode && [g.char] == ['\x7d']) = g.isCodeChar '\x7d' := by
      simp [Glyph.isCodeChar]
    rw [depthAfter, hopening, hclosing] at h
    rw [braceBalance_cons, Glyph.braceWeight]
    split_ifs at h ⊢ with hopen hclose hzero
    · rw [ih h]
      omega
    · rw [ih h]
      omega
    · rw [ih h]
      omega

/-- A delimiter that opens in a balanced stretch closes in it, whatever follows. -/
theorem AgreesUpTo.closeOf? {src other : Source} {start stop i : Nat}
    (h : AgreesUpTo stop src other)
    (hbalanced : Balanced opening closing (other.glyphs.extract start stop)) (hstart : start ≤ i)
    (hi : i < stop) :
    src.closeOf? opening closing i = other.closeOf? opening closing i ∧
      ∀ close ∈ other.closeOf? opening closing i, close < stop := by
  have hsplit (source : Source) : source.glyphs.drop i =
      source.glyphs.extract i stop ++ source.glyphs.drop stop := by
    rw [List.extract_eq_take_drop, show stop = i + (stop - i) by omega, ← List.drop_drop,
      Nat.add_sub_cancel_left, List.take_append_drop]
  have hjoin := extract_append_extract other.glyphs hstart (Nat.le_of_lt hi)
  have hsame := h.extract (a := i) (Nat.le_refl stop)
  unfold Source.closeOf?
  rw [hsplit src, hsplit other, hsame]
  cases hwindow : other.glyphs.extract i stop with
  | nil =>
    -- A source that holds nothing there ends before `i`.
    have hnil (source : Source) (hempty : source.glyphs.extract i stop = []) :
        source.glyphs.drop stop = [] := by
      rw [List.extract_eq_take_drop, List.take_eq_nil_iff, List.drop_eq_nil_iff] at hempty
      rw [List.drop_eq_nil_iff]
      omega
    rw [hnil src (hsame.trans hwindow), hnil other hwindow]
    exact ⟨rfl, by simp⟩
  | cons g rest =>
    simp only [List.cons_append]
    split_ifs with hopen
    · rw [← hjoin, hwindow, Balanced, depthAfter_append] at hbalanced
      obtain ⟨outer, -, hinner⟩ := Option.bind_eq_some_iff.mp hbalanced
      rw [depthAfter, if_pos hopen] at hinner
      obtain ⟨j, hj⟩ : ∃ j, closeIn opening closing 1 rest = some j := by
        refine Option.ne_none_iff_exists'.mp fun hnone ↦ ?_
        exact absurd (lt_of_closeIn_eq_none Nat.one_pos hnone hinner) (Nat.not_lt_zero outer)
      rw [closeIn_append_of_some hj, closeIn_append_of_some hj]
      refine ⟨rfl, fun close hclose ↦ ?_⟩
      cases hclose
      have hlength := congrArg List.length hwindow
      rw [List.extract_eq_take_drop, List.length_take, List.length_cons] at hlength
      have hlt := closeIn_lt hj
      change i + 1 + j < stop
      omega
    · exact ⟨rfl, by simp⟩

/-- What closes a delimiter is its closing character, as code. -/
theorem getElem?_of_closeIn {depth i : Nat} {stretch : List Glyph} {c : Char}
    (h : closeIn opening [c] depth stretch = some i) : stretch[i]? = some (Glyph.code c) := by
  induction stretch generalizing depth i with
  | nil => simp [closeIn] at h
  | cons g rest ih =>
    rw [closeIn] at h
    split_ifs at h with hopen hclose hdepth
    · obtain ⟨j, hj, rfl⟩ := Option.map_eq_some_iff.mp h
      exact ih hj
    · cases h
      rw [(isCode_and_char_eq_iff g c).mp hclose]
      rfl
    · obtain ⟨j, hj, rfl⟩ := Option.map_eq_some_iff.mp h
      exact ih hj
    · obtain ⟨j, hj, rfl⟩ := Option.map_eq_some_iff.mp h
      exact ih hj

/-- What is closed is the opening character, as code. -/
theorem getElem?_opening_of_closeOf? {src : Source} {start close : Nat} {c : Char}
    (h : src.closeOf? [c] closing start = some close) :
    src.glyphs[start]? = some (Glyph.code c) := by
  obtain ⟨g, rest, -, hdrop, hopen, -, -⟩ := closeOf?_eq_some h
  rw [← List.head?_drop, hdrop, (isCode_and_char_eq_iff g c).mp hopen]
  rfl

theorem getElem?_of_closeOf? {src : Source} {start close : Nat} {c : Char}
    (h : src.closeOf? opening [c] start = some close) :
    src.glyphs[close]? = some (Glyph.code c) := by
  obtain ⟨g, rest, i, hdrop, -, hi, rfl⟩ := closeOf?_eq_some h
  have hrest : rest = src.glyphs.drop (start + 1) := by
    rw [← List.tail_drop, hdrop, List.tail_cons]
  rw [← getElem?_of_closeIn hi, hrest, List.getElem?_drop]

/-- Up to where a delimiter closes, all that is open is closed. -/
theorem depthAfter_of_closeIn {depth i : Nat} {stretch : List Glyph} (hpos : 0 < depth)
    (h : closeIn opening closing depth stretch = some i) :
    depthAfter opening closing depth (stretch.take (i + 1)) = some 0 := by
  induction stretch generalizing depth i with
  | nil => simp [closeIn] at h
  | cons g rest ih =>
    rw [closeIn] at h
    rw [List.take_succ_cons, depthAfter]
    split_ifs at h with hopen hclose hdepth
    · obtain ⟨j, hj, rfl⟩ := Option.map_eq_some_iff.mp h
      rw [if_pos hopen]
      exact ih (Nat.succ_pos _) hj
    · cases h
      rw [if_neg hopen, if_pos hclose, if_neg (by omega), List.take_zero, depthAfter,
        Nat.sub_eq_zero_of_le hdepth]
    · obtain ⟨j, hj, rfl⟩ := Option.map_eq_some_iff.mp h
      rw [if_neg hopen, if_pos hclose, if_neg (by omega)]
      exact ih (by omega) hj
    · obtain ⟨j, hj, rfl⟩ := Option.map_eq_some_iff.mp h
      rw [if_neg hopen, if_neg hclose]
      exact ih hpos hj

/-- From a delimiter to the one that closes it the source is balanced. -/
theorem balanced_of_closeOf? {src : Source} {start close : Nat}
    (h : src.closeOf? opening closing start = some close) :
    Balanced opening closing (src.glyphs.extract start (close + 1)) := by
  obtain ⟨g, rest, i, hdrop, hopen, hi, rfl⟩ := closeOf?_eq_some h
  have hlength : start + 1 + i + 1 - start = i + 1 + 1 := by omega
  rw [List.extract_eq_take_drop, hdrop, hlength, List.take_succ_cons, Balanced, depthAfter,
    if_pos hopen]
  exact depthAfter_of_closeIn Nat.one_pos hi

end MemberOrder.Source
