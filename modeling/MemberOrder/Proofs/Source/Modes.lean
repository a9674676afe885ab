import MemberOrder.Proofs.Source.Reading

/-!
Where a reading can be cut. The mode that a text leaves the reader in is all that what follows
depends on, unless the cut falls between two characters that are read as one sign. So whole lines
that lead back to code are read one by one, in whatever order they stand.
-/

set_option autoImplicit false

namespace MemberOrder.Source

/-- The mode that the reader is in behind a text. -/
def modeAfter : Mode → Text → Mode
  | mode, [] => mode
  | .code, '/' :: '/' :: rest => modeAfter .lineComment rest
  | .code, '/' :: '*' :: rest => modeAfter .blockComment rest
  | .code, '"' :: '"' :: '"' :: rest => modeAfter .textBlock rest
  | .code, '"' :: rest => modeAfter (.literal '"') rest
  | .code, '\'' :: rest => modeAfter (.literal '\'') rest
  | .code, _ :: rest => modeAfter .code rest
  | .lineComment, '\n' :: rest => modeAfter .code rest
  | .lineComment, _ :: rest => modeAfter .lineComment rest
  | .blockComment, '*' :: '/' :: rest => modeAfter .code rest
  | .blockComment, _ :: rest => modeAfter .blockComment rest
  | .textBlock, '\\' :: _ :: rest => modeAfter .textBlock rest
  | .textBlock, '"' :: '"' :: '"' :: rest => modeAfter .code rest
  | .textBlock, _ :: rest => modeAfter .textBlock rest
  | .literal _, '\n' :: rest => modeAfter .code rest
  | .literal quote, '\\' :: _ :: rest => modeAfter (.literal quote) rest
  | .literal quote, c :: rest => modeAfter (if c = quote then .code else .literal quote) rest

theorem forall_getLast?_of_cons {P : Char → Prop} {c : Char} {t : Text}
    (h : ∀ d ∈ (c :: t).getLast?, P d) : ∀ d ∈ t.getLast?, P d := by
  intro d hd
  refine h d ?_
  rw [Option.mem_def] at hd ⊢
  rw [List.getLast?_cons, hd]
  rfl

/-- An escape that is not the end of the text stands in it. -/
theorem append_ne_escape {c : Char} {t : Text} (u : Text) (hopen : ¬ (c = '\\' ∧ t = []))
    (hsign : ∀ head rest, c = '\\' → t = head :: rest → False) :
    ∀ head rest, c = '\\' → t ++ u = head :: rest → False := by
  intro head rest hc _
  obtain ⟨d, others, ht⟩ := List.exists_cons_of_ne_nil fun hnil ↦ hopen ⟨hc, hnil⟩
  exact hsign d others hc ht

/-- The characters that begin a sign of more than one character. -/
def signStarts : List Char := ['/', '*', '"', '\\']

/-- No sign of more than one character begins with the last character of the text. -/
def EndsSign (t : Text) : Prop := ∀ c ∈ t.getLast?, c ∉ signStarts

namespace EndsSign

variable {c : Char} {t : Text}

theorem of_cons (h : EndsSign (c :: t)) : EndsSign t := forall_getLast?_of_cons h

theorem tail_ne_nil (h : EndsSign (c :: t)) (hc : c ∈ signStarts) : t ≠ [] := by
  rintro rfl
  exact h c rfl hc

/-- A sign of two characters that stands across the cut stands before it. -/
theorem append_ne_cons {a b : Char} (u : Text) (h : EndsSign (c :: t)) (ha : a ∈ signStarts)
    (hsign : ∀ rest, c = a → t = b :: rest → False) :
    ∀ rest, c = a → t ++ u = b :: rest → False := by
  rintro rest rfl heq
  cases t with
  | nil => exact h.tail_ne_nil ha rfl
  | cons d t =>
    obtain ⟨rfl, -⟩ := List.cons_eq_cons.mp heq
    exact hsign t rfl rfl

/-- Three quotes that stand across the cut stand before it. -/
theorem append_ne_quotes (u : Text) (h : EndsSign (c :: t))
    (hsign : ∀ rest, c = '"' → t = '"' :: '"' :: rest → False) :
    ∀ rest, c = '"' → t ++ u = '"' :: '"' :: rest → False := by
  rintro rest rfl heq
  match t with
  | [] => exact h.tail_ne_nil (by decide) rfl
  | [d] =>
    obtain ⟨rfl, -⟩ := List.cons_eq_cons.mp heq
    exact h.of_cons.tail_ne_nil (by decide) rfl
  | d :: e :: t =>
    simp only [List.cons_append, List.cons.injEq] at heq
    obtain ⟨rfl, rfl, -⟩ := heq
    exact hsign t rfl rfl

theorem ne_backslash (u : Text) (h : EndsSign (c :: t))
    (hsign : ∀ head rest, c = '\\' → t = head :: rest → False) :
    ∀ head rest, c = '\\' → t ++ u = head :: rest → False := by
  refine append_ne_escape u ?_ hsign
  rintro ⟨rfl, hnil⟩
  exact h.tail_ne_nil (by decide) hnil

end EndsSign

/-- Behind a cut between two signs the reading goes on in the mode reached there. -/
theorem scan_append {mode : Mode} {t : Text} (u : Text) (h : EndsSign t) :
    scan mode (t ++ u) = scan mode t ++ scan (modeAfter mode t) u := by
  fun_induction modeAfter mode t with
  | case1 mode => simp [scan]
  | case2 rest ih => simp [scan, ih h.of_cons.of_cons]
  | case3 rest ih => simp [scan, ih h.of_cons.of_cons]
  | case4 rest ih => simp [scan, ih h.of_cons.of_cons.of_cons]
  | case5 rest hquotes ih =>
    have hquotes' (r : Text) := h.append_ne_quotes u (fun r _ ↦ hquotes r) r rfl
    simp [scan, ih h.of_cons]
  | case6 rest ih => simp [scan, ih h.of_cons]
  | case7 c rest hslash hstar hquotes hquote hsingle ih =>
    have hslash' := h.append_ne_cons u (by decide) hslash
    have hstar' := h.append_ne_cons u (by decide) hstar
    have hquotes' := h.append_ne_quotes u hquotes
    simp [scan, ih h.of_cons]
  | case8 rest ih => simp [scan, ih h.of_cons]
  | case9 c rest hfeed ih => simp [scan, ih h.of_cons]
  | case10 rest ih => simp [scan, ih h.of_cons.of_cons]
  | case11 c rest hstar ih =>
    have hstar' := h.append_ne_cons u (by decide) hstar
    simp [scan, ih h.of_cons]
  | case12 c rest ih => simp [scan, ih h.of_cons.of_cons]
  | case13 rest ih => simp [scan, ih h.of_cons.of_cons.of_cons]
  | case14 c rest hescape hquotes ih =>
    have hescape' := h.ne_backslash u hescape
    have hquotes' := h.append_ne_quotes u hquotes
    simp [scan, ih h.of_cons]
  | case15 quote rest ih => simp [scan, ih h.of_cons]
  | case16 quote c rest ih => simp [scan, ih h.of_cons.of_cons]
  | case17 quote c rest hfeed hescape ih =>
    have hescape' := h.ne_backslash u hescape
    simp [scan, ih h.of_cons]

/-- Is the last character of a stretch code, or `default` if there is none? -/
def lastIsCode (default : Bool) (stretch : List Glyph) : Bool :=
  (stretch.getLast?.map Glyph.isCode).getD default

theorem lastIsCode_cons (default : Bool) (g : Glyph) (stretch : List Glyph) :
    lastIsCode default (g :: stretch) = lastIsCode g.isCode stretch := by
  unfold lastIsCode
  rw [List.getLast?_cons]
  cases stretch.getLast? <;> rfl

theorem lastIsCode_append (default : Bool) (stretch rest : List Glyph) :
    lastIsCode default (stretch ++ rest) = lastIsCode (lastIsCode default stretch) rest := by
  induction stretch generalizing default with
  | nil => rfl
  | cons g stretch ih => rw [List.cons_append, lastIsCode_cons, lastIsCode_cons, ih]

theorem lastIsCode_of_false {stretch : List Glyph} (h : lastIsCode false stretch = true)
    (default : Bool) : lastIsCode default stretch = true := by
  unfold lastIsCode at h ⊢
  cases hlast : stretch.getLast? with
  | none => simp [hlast] at h
  | some g => simpa [hlast] using h

/-- Behind a character of code the reader is in code. -/
theorem modeAfter_eq_code {mode : Mode} {t : Text}
    (h : lastIsCode (decide (mode = .code)) (scan mode t) = true) : modeAfter mode t = .code := by
  fun_induction modeAfter mode t with
  | case1 mode => simpa [scan, lastIsCode] using h
  | case7 c rest _ _ _ _ _ ih =>
    simp only [scan, lastIsCode_cons] at h
    exact ih h
  | case8 rest ih =>
    simp only [scan, lastIsCode_cons] at h
    exact ih h
  | case15 quote rest ih =>
    simp only [scan, lastIsCode_cons] at h
    exact ih h
  | case17 quote c rest hfeed hescape ih =>
    rw [scan, lastIsCode_cons] at h
    · exact ih (lastIsCode_of_false h _)
    · exact hfeed
    · exact hescape
  | _ =>
    -- In all other cases the character is no code, and so cannot be the last one.
    rename_i ih
    simp only [scan, lastIsCode_cons] at h
    exact ih (lastIsCode_of_false h _)

/-- Behind a line feed the reader is in code only if the line feed is code. -/
theorem lastIsCode_of_modeAfter {mode : Mode} {t : Text} (hfeed : ∀ c ∈ t.getLast?, c = '\n')
    (h : modeAfter mode t = .code) :
    lastIsCode (decide (mode = .code)) (scan mode t) = true := by
  -- A sign that leads back to code ends in no line feed, so that something follows it.
  have hback {c : Char} {rest : Text} (hc : c ≠ '\n')
      (hlast : ∀ d ∈ (c :: rest).getLast?, d = '\n')
      (hcode : lastIsCode true (scan .code rest) = true) :
      lastIsCode false (scan .code rest) = true := by
    cases rest with
    | nil => exact absurd (hlast c rfl) hc
    | cons d rest =>
      have hne : scan .code (d :: rest) ≠ [] := by
        intro hnil
        have hlength := length_scan .code (d :: rest)
        rw [hnil] at hlength
        exact absurd hlength (by simp)
      unfold lastIsCode at hcode ⊢
      rw [List.getLast?_eq_some_getLast hne] at hcode ⊢
      exact hcode
  fun_induction modeAfter mode t with
  | case1 mode => simp [scan, lastIsCode, h]
  | case10 rest ih =>
    simp only [scan, lastIsCode_cons]
    have hrest := forall_getLast?_of_cons hfeed
    exact hback (by decide) hrest (ih (forall_getLast?_of_cons hrest) h)
  | case13 rest ih =>
    simp only [scan, lastIsCode_cons]
    have hrest := forall_getLast?_of_cons (forall_getLast?_of_cons hfeed)
    exact hback (by decide) hrest (ih (forall_getLast?_of_cons hrest) h)
  | case17 quote c rest hnofeed hescape ih =>
    have hrest := ih (forall_getLast?_of_cons hfeed) h
    rw [scan, lastIsCode_cons]
    · split_ifs at hrest ⊢ with hquote
      · exact hback (fun heq ↦ hnofeed heq) hfeed hrest
      · exact hrest
    · exact hnofeed
    · exact hescape
  | case2 rest ih | case3 rest ih | case12 c rest ih | case16 quote c rest ih =>
    simp only [scan, lastIsCode_cons]
    exact ih (forall_getLast?_of_cons (forall_getLast?_of_cons hfeed)) h
  | case4 rest ih =>
    simp only [scan, lastIsCode_cons]
    exact ih (forall_getLast?_of_cons (forall_getLast?_of_cons (forall_getLast?_of_cons hfeed))) h
  | _ =>
    rename_i ih
    simp only [scan, lastIsCode_cons]
    exact ih (forall_getLast?_of_cons hfeed) h

/-! ### Cuts of a source -/

variable (src : Source)

/-- A source is read behind a cut between two signs in the mode reached there. -/
theorem glyphs_eq_append {i : Nat} (h : EndsSign (src.text.take i)) :
    src.glyphs = scan .code (src.text.take i) ++
      scan (modeAfter .code (src.text.take i)) (src.text.drop i) := by
  rw [← scan_append _ h, List.take_append_drop, src.glyphs_eq]

theorem take_glyphs {i : Nat} (h : EndsSign (src.text.take i)) :
    src.glyphs.take i = scan .code (src.text.take i) := by
  rcases Nat.le_total i src.text.length with hle | hle
  · rw [src.glyphs_eq_append h]
    exact List.take_left' (by rw [length_scan, List.length_take, Nat.min_eq_left hle])
  · rw [List.take_of_length_le (by rwa [src.length_glyphs]), List.take_of_length_le hle,
      src.glyphs_eq]

theorem isCodeAt_eq_lastIsCode {i : Nat} (h : i < src.text.length) (default : Bool) :
    src.isCodeAt i = lastIsCode default (src.glyphs.take (i + 1)) := by
  have hlt : i < src.glyphs.length := by rwa [src.length_glyphs]
  unfold isCodeAt lastIsCode
  rw [List.take_add_one, List.getElem?_eq_getElem hlt, Option.toList_some, List.getLast?_concat]
  rfl

theorem endsSign_take_succ {i : Nat} {c : Char} (h : src.text[i]? = some c) (hc : c ∉ signStarts) :
    EndsSign (src.text.take (i + 1)) := by
  intro d hd
  rw [Option.mem_def, List.take_add_one, h, Option.toList_some, List.getLast?_concat,
    Option.some.injEq] at hd
  exact hd ▸ hc

theorem endsSign_of_feed {i : Nat} (h : src.text[i]? = some '\n') :
    EndsSign (src.text.take (i + 1)) :=
  src.endsSign_take_succ h (by decide)

/-- Behind code that begins no sign the reader is in code. -/
theorem modeAfter_take_succ {i : Nat} {c : Char} (h : src.glyphs[i]? = some (Glyph.code c))
    (hc : c ∉ signStarts) : modeAfter .code (src.text.take (i + 1)) = .code := by
  have hchar : src.text[i]? = some c := by
    rw [src.getElem?_text, h]
    rfl
  have hcode : src.isCodeAt i = true := by simp [isCodeAt, h, Glyph.code]
  apply modeAfter_eq_code
  rw [← src.take_glyphs (src.endsSign_take_succ hchar hc),
    ← src.isCodeAt_eq_lastIsCode (List.getElem?_eq_some_iff.mp hchar).1]
  exact hcode

/-- The reader is in code behind a line feed exactly if that is code. -/
theorem modeAfter_take_eq_code_iff {i : Nat} (h : src.text[i]? = some '\n') :
    modeAfter .code (src.text.take (i + 1)) = .code ↔ src.isCodeAt i = true := by
  obtain ⟨hlt, -⟩ := List.getElem?_eq_some_iff.mp h
  rw [src.isCodeAt_eq_lastIsCode hlt true, src.take_glyphs (src.endsSign_of_feed h)]
  constructor
  · intro hcode
    refine lastIsCode_of_modeAfter (fun c hc ↦ ?_) hcode
    rw [Option.mem_def, List.take_add_one, h, Option.toList_some, List.getLast?_concat,
      Option.some.injEq] at hc
    exact hc.symm
  · intro hcode
    exact modeAfter_eq_code hcode

/-! ### Pieces that are read by themselves -/

/-- Which characters of a text are code. -/
def codeMap (t : Text) : List Bool := (ofText t).glyphs.map Glyph.isCode

theorem length_codeMap (t : Text) : (codeMap t).length = t.length := by
  rw [codeMap, List.length_map, length_glyphs]
  rfl

/-- The piece is empty or ends with a line feed, and the reader is in code behind it. -/
def StandsAlone (piece : Text) : Prop :=
  (piece = [] ∨ piece.getLast? = some '\n') ∧ modeAfter .code piece = .code

instance : DecidablePred StandsAlone := fun _ ↦ inferInstanceAs (Decidable (_ ∧ _))

theorem StandsAlone.endsSign {piece : Text} (h : StandsAlone piece) : EndsSign piece := by
  intro c hc
  rcases h.1 with rfl | hfeed
  · cases hc
  · rw [Option.mem_def, hfeed, Option.some.injEq] at hc
    rw [← hc]
    decide

/-- What follows a piece is read as if the piece were not there. -/
theorem StandsAlone.codeMap_append {piece : Text} (h : StandsAlone piece) (rest : Text) :
    codeMap (piece ++ rest) = codeMap piece ++ codeMap rest := by
  change (scan .code (piece ++ rest)).map Glyph.isCode = _
  rw [scan_append rest h.endsSign, h.2, List.map_append]
  rfl

theorem codeMap_flatten_append {pieces : List Text} (h : ∀ piece ∈ pieces, StandsAlone piece)
    (rest : Text) :
    codeMap (pieces.flatten ++ rest) = pieces.flatMap codeMap ++ codeMap rest := by
  induction pieces with
  | nil => rfl
  | cons piece others ih =>
    obtain ⟨hpiece, hothers⟩ := List.forall_mem_cons.mp h
    rw [List.flatten_cons, List.append_assoc, hpiece.codeMap_append, ih hothers,
      List.flatMap_cons, List.append_assoc]

/-- Pieces that stand alone are read one by one, whatever follows them, and so in every order: which
characters are code is told piece by piece, and in each piece as if it were all there is. -/
theorem codeMap_pieces {pieces : List Text} (h : ∀ piece ∈ pieces, StandsAlone piece)
    (rest : Text) :
    codeMap (pieces.flatten ++ rest) = pieces.flatMap codeMap ++ codeMap rest ∧
      ∀ others, others.Perm pieces →
        codeMap (others.flatten ++ rest) = others.flatMap codeMap ++ codeMap rest ∧
          ∀ before piece after, others = before ++ piece :: after → ∀ i < piece.length,
            (codeMap (others.flatten ++ rest))[before.flatten.length + i]? =
              (codeMap piece)[i]? := by
  refine ⟨codeMap_flatten_append h rest, fun others hperm ↦ ?_⟩
  have hread := codeMap_flatten_append (fun piece hpiece ↦ h piece (hperm.subset hpiece)) rest
  refine ⟨hread, ?_⟩
  rintro before piece after rfl i hi
  have hlength : (before.flatMap codeMap).length = before.flatten.length := by
    simp [List.length_flatMap, List.length_flatten, length_codeMap]
  rw [hread, List.flatMap_append, List.flatMap_cons, List.append_assoc, List.append_assoc,
    List.getElem?_append_right (by omega), hlength, Nat.add_sub_cancel_left,
    List.getElem?_append_left (by rwa [length_codeMap])]

/-- Lines with a comment, nothing, a literal without end, an escaped quote and a text block. -/
def lonePieces : List Text :=
  ["/* \" */ x\n", "", "s = \"a //\n", "'\\'' // it's\n", "\"\"\"\n\\\"\"\"\" y\n"].map
    String.toList

theorem lonePieces_reversed :
    (∀ piece ∈ lonePieces, StandsAlone piece) ∧
      codeMap (lonePieces.reverse.flatten ++ ['"', 'b']) =
        lonePieces.reverse.flatMap codeMap ++ [false, false] := by
  have halone : ∀ piece ∈ lonePieces, StandsAlone piece := by decide +kernel
  obtain ⟨-, hperm⟩ := codeMap_pieces halone ['"', 'b']
  exact ⟨halone, (hperm _ (List.reverse_perm lonePieces)).1⟩

end MemberOrder.Source
